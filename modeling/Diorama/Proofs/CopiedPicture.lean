/-
  A copy looks the same.

  The copy of a scene shows the same picture as the scene at every time, up to the sign of zeros:
  merging objects, renumbering them and unsetting defaults cannot be seen.

  An object and the copy of its class are counterparts (`counterpart_copyObject`).  Either the
  object represents its class itself, or it has the key of the representative, and keys under the
  final classes name the copies (`copyId_comp_classId`).  Only parts are ever merged, so a drawn
  object is always copied itself, and its copy holds the copies of what it holds.

  The copy is no deeper than the scene.  Its objects are counted by weight: the rank of an object is
  the number of copies of lighter objects.  It drops at every reference and stays below the size of
  the copy.
-/
import Diorama.Proofs.CopiedObjects
import Diorama.Proofs.Quotient
import Diorama.Proofs.TreeSampling
import Diorama.Proofs.WordScalars

namespace Diorama

open Scalar (Respects Alike)

/-! ## Settings without defaults -/

section

variable {K : Type} [Scalar K] {r : K → K → Prop} [Respects r]

omit [Respects r] in
/-- Renaming keeps the settings of a visual. -/
theorem Visual.Like.of_mapIds {f : ObjectId → ObjectId} {v v' : Visual K}
    (h : (v.mapIds f).Like r v') : v.Like r v' :=
  ⟨h.centerPoint, h.offset, h.scale, h.rotation, h.matrix, h.opacity, h.isVisible⟩

variable (hbeq : ∀ {x y : K}, (x == y) = true → r x y)

include hbeq

/-- Unsetting defaults moves no shape. -/
theorem ShapeTransform.like_withoutDefaults (t : ShapeTransform K) :
    t.Like r t.withoutDefaults where
  centerPoint := Vec2.likeOr_dropDefault hbeq .zero _
  offset := Vec2.likeOr_dropDefault hbeq .zero _
  scale := Vec2.likeOr_dropDefault hbeq .one _
  rotation := .dropDefault Respects.refl hbeq 0 _
  matrix := .dropDefault Matrix3x2.Like.refl (Matrix3x2.like_of_beq hbeq) .identity _

/-- Unsetting defaults moves no visual and hides none. -/
theorem Visual.like_withoutDefaults (v : Visual K) : v.Like r v.withoutDefaults where
  centerPoint := .dropDefault Vec3.Like.refl (Vec3.like_of_beq hbeq) .zero _
  offset := .dropDefault Vec3.Like.refl (Vec3.like_of_beq hbeq) .zero _
  scale := .dropDefault Vec3.Like.refl (Vec3.like_of_beq hbeq) .one _
  rotation := .dropDefault Respects.refl hbeq 0 _
  matrix := .dropDefault Matrix4x4.Like.refl (Matrix4x4.like_of_beq hbeq) .identity _
  opacity := .dropDefault Respects.refl hbeq 1 _
  isVisible := .dropDefault (fun _ => rfl) eq_of_beq true _

end

namespace Merge

/-! ## What a copy holds -/

section

variable {K : Type} [Scalar K] {s out : Scene K} {ix : Index} {c : Classes}
  {settings : OptimizerSettings} {order : List Nat}

omit [Scalar K] in
/-- Freezing marks objects and changes none. -/
theorem freezeAnimations_objects (s : Scene K) (o : Object K) :
    (freezeAnimations s o).objects = s.objects ∧ (freezeAnimations s o).root = s.root := by
  unfold freezeAnimations
  induction o.attached.animators generalizing s with
  | nil => exact ⟨rfl, rfl⟩
  | cons a rest ih =>
    have hfreeze : (s.freeze a.animation).objects = s.objects ∧
        (s.freeze a.animation).root = s.root := by
      unfold Scene.freeze
      split
      · exact ⟨rfl, rfl⟩
      · exact ⟨rfl, rfl⟩
    obtain ⟨hobjects, hroot⟩ := ih (s.freeze a.animation)
    exact ⟨hobjects.trans hfreeze.1, hroot.trans hfreeze.2⟩

omit [Scalar K] in
theorem foldl_freezeAnimations (objects : List (Object K)) (s : Scene K) :
    (objects.foldl freezeAnimations s).objects = s.objects ∧
      (objects.foldl freezeAnimations s).root = s.root := by
  induction objects generalizing s with
  | nil => exact ⟨rfl, rfl⟩
  | cons o rest ih =>
    obtain ⟨hobjects, hroot⟩ := ih (freezeAnimations s o)
    obtain ⟨hobjects', hroot'⟩ := freezeAnimations_objects s o
    exact ⟨hobjects.trans hobjects', hroot.trans hroot'⟩

/-- The scene of the copies that an order lists. -/
def assembled (s : Scene K) (ix : Index) (c : Classes) (settings : OptimizerSettings)
    (order : List Nat) : Scene K :=
  let objects := order.filterMap fun r =>
    (objectAt? s ix r).map (copyObject c settings (copyId ix c order) r)
  objects.foldl freezeAnimations { root := copyId ix c order s.root, objects := objects.toArray }

/-- The root of the copy is the copy of the root. -/
theorem assembled_root : (assembled s ix c settings order).root = copyId ix c order s.root :=
  (foldl_freezeAnimations _ _).2

/-- The objects of the copy are the copies in order. -/
theorem assembled_objects : (assembled s ix c settings order).objects.toList =
    order.filterMap fun r =>
      (objectAt? s ix r).map (copyObject c settings (copyId ix c order) r) := by
  unfold assembled
  rw [(foldl_freezeAnimations _ _).1]

/-- A copy is the scene of the copies in the order of the walk, if that scene is sound. -/
theorem copy_eq_ok_iff : copy s ix c settings = .ok out ↔ ∃ order, copyOrder s ix c = .ok order ∧
    out = assembled s ix c settings order ∧ out.validate = .ok () := by
  -- looking an object up and copying it, in one step and in two
  have hobjects : ∀ order : List Nat, (order.filterMap fun r => do
        let o ← s.get? (← ix.ids[r]?)
        return copyObject c settings (copyId ix c order) r o) =
      order.filterMap fun r =>
        (objectAt? s ix r).map (copyObject c settings (copyId ix c order) r) := by
    intro order
    refine congrArg (order.filterMap ·) (funext fun r => ?_)
    unfold objectAt?
    cases ix.ids[r]? with
    | none => rfl
    | some id =>
      show (s.get? id).bind _ = ((s.get? id).map _)
      cases s.get? id <;> rfl
  unfold copy
  cases horder : copyOrder s ix c with
  | error e =>
    constructor
    · intro h
      nomatch h
    · rintro ⟨order, h, -⟩
      nomatch h
  | ok order =>
    simp only [bind, Except.bind] at hobjects ⊢
    rw [hobjects]
    split
    · rename_i hvalid
      change (assembled s ix c settings order).validate = .ok () at hvalid
      constructor
      · intro h
        obtain rfl := Except.ok.inj h
        exact ⟨order, rfl, rfl, hvalid⟩
      · rintro ⟨order', ⟨⟩, rfl, -⟩
        rfl
    · rename_i e hvalid
      change (assembled s ix c settings order).validate = .error e at hvalid
      constructor
      · intro h
        nomatch h
      · rintro ⟨order', ⟨⟩, rfl, h⟩
        rw [hvalid] at h
        nomatch h

/-- The copy of an object is numbered by when its representative was finished. -/
theorem copyId_of_position? {id : ObjectId} {p : Nat} (h : ix.position? id = some p) :
    copyId ix c order id = .ofIndex (order.idxOf (c.representative p)) := by
  simp only [copyId, h]

/-- An object and the representative of its class have one copy. -/
theorem copyId_comp_classId (hnodup : ix.ids.Nodup) :
    copyId ix c order ∘ classId ix c.relation = copyId ix c order := by
  funext id
  show copyId ix c order (classId ix c.relation id) = copyId ix c order id
  cases hpos : ix.position? id with
  | none => simp only [classId, hpos]
  | some p =>
    have hpos' := Index.position?_of_getElem? hnodup (classId_of_position? c.relation hpos)
    have hrep : c.representative p = c.representative (sInf {q | c.relation p q}) :=
      related_least c.relation p
    rw [copyId_of_position? hpos, copyId_of_position? hpos', hrep]

omit [Scalar K] in
/-- Where nothing is left out, entries keep their positions. -/
theorem getElem?_filterMap_of_isSome {α β : Type} {g : α → Option β} {l : List α}
    (h : ∀ a ∈ l, (g a).isSome = true) (i : Nat) : (l.filterMap g)[i]? = l[i]?.bind g := by
  induction l generalizing i with
  | nil => rfl
  | cons a l ih =>
    obtain ⟨b, hb⟩ := Option.isSome_iff_exists.mp (h a List.mem_cons_self)
    rw [List.filterMap_cons_some hb]
    cases i with
    | zero => simp [hb]
    | succ i => simpa using ih (fun a' ha' => h a' (List.mem_cons_of_mem _ ha')) i

omit [Scalar K] in
/-- No more objects are indexed than there are ids. -/
theorem size_le_words (hnodup : ix.ids.Nodup) : ix.ids.length ≤ UInt32.size := by
  have hindices : (ix.ids.map ObjectId.index).Nodup :=
    hnodup.map fun _ _ => ObjectId.index_injective
  have hsub : ix.ids.map ObjectId.index ⊆ List.range UInt32.size := by
    intro i hi
    obtain ⟨id, -, rfl⟩ := List.mem_map.mp hi
    exact List.mem_range.mpr id.word.toNat_lt
  simpa using (List.subperm_of_subset hindices hsub).length_le

omit [Scalar K] in
/-- Copies are no more than indexed objects. -/
theorem Ordered.length_le (h : Ordered s ix c order) : order.length ≤ ix.size := by
  have hsub : order ⊆ List.range ix.size := by
    intro r hr
    obtain ⟨id, o, hid, -⟩ := h.object r hr
    obtain ⟨hlt, -⟩ := List.getElem?_eq_some_iff.mp hid
    rw [Index.size_eq_length_ids]
    exact List.mem_range.mpr hlt
  simpa using (List.subperm_of_subset h.nodup hsub).length_le

/-- A scene, its classes, and a copy that holds one object for each class in the order. -/
structure Copied (s : Scene K) (ix : Index) (settings : OptimizerSettings) (c : Classes)
    (order : List Nat) (out : Scene K) : Prop where
  sound : Index.Sound s ix
  least : IsLeast {E | IsCongruence s ix settings E} c.relation
  represented : ∀ p, c.relation p (c.representative p)
  ordered : Ordered s ix c order
  root : out.root = copyId ix c order s.root
  objects : out.objects.toList = order.filterMap fun r =>
    (objectAt? s ix r).map (copyObject c settings (copyId ix c order) r)

/-- What is assembled in the order of a walk is a copy. -/
theorem copied_assembled (hix : Index.build s = .ok ix)
    (horder : copyOrder s ix (Classes.ofIndex s ix settings) = .ok order) :
    Copied s ix settings (Classes.ofIndex s ix settings) order
      (assembled s ix (Classes.ofIndex s ix settings) settings order) := by
  have hsound := Index.sound_of_build hix
  refine ⟨hsound, ?_, ?_, ordered_of_copyOrder horder, assembled_root, assembled_objects⟩
  · exact Classes.isLeast_relation hsound.nodup (Classes.complete_schedule hsound)
  · exact fun p => (Classes.isLeast_representative _ p).1

/-- A copy that was made is one in this sense. -/
theorem copied_of_copy (hix : Index.build s = .ok ix)
    (hcopy : copy s ix (Classes.ofIndex s ix settings) settings = .ok out) :
    ∃ order, Copied s ix settings (Classes.ofIndex s ix settings) order out := by
  obtain ⟨order, horder, rfl, -⟩ := copy_eq_ok_iff.mp hcopy
  exact ⟨order, copied_assembled hix horder⟩

namespace Copied

variable (h : Copied s ix settings c order out)

include h

/-- Every representative that was finished has a copy. -/
theorem isSome_of_mem {r : Nat} (hr : r ∈ order) :
    ((objectAt? s ix r).map (copyObject c settings (copyId ix c order) r)).isSome = true := by
  obtain ⟨id, o, hid, hget⟩ := h.ordered.object r hr
  simp [objectAt?, hid, hget]

/-- One object for every representative that was finished. -/
theorem size_eq : out.size = order.length := by
  have hlen : out.size = out.objects.toList.length := rfl
  rw [hlen, h.objects, List.filterMap_length_eq_length]
  exact fun r hr => h.isSome_of_mem hr

/-- Every class of the order has its copy where `copyId` says. -/
theorem get?_copyId {id : ObjectId} {p : Nat} (hpos : ix.position? id = some p)
    (hmem : c.representative p ∈ order) {o : Object K}
    (ho : objectAt? s ix (c.representative p) = some o) :
    out.get? (copyId ix c order id) =
      some (copyObject c settings (copyId ix c order) (c.representative p) o) := by
  have hlt : order.idxOf (c.representative p) < order.length := List.idxOf_lt_length_of_mem hmem
  have hword : order.idxOf (c.representative p) < UInt32.size := by
    have hle := h.ordered.length_le
    have hwords := size_le_words h.sound.nodup
    rw [Index.size_eq_length_ids] at hle
    omega
  rw [copyId_of_position? hpos, Scene.get?, ObjectId.index_ofIndex hword,
    ← Array.getElem?_toList, h.objects, getElem?_filterMap_of_isSome fun r => h.isSome_of_mem]
  rw [List.getElem?_eq_getElem hlt, List.getElem_idxOf hlt, Option.bind_some, ho, Option.map_some]

/-! ## Ranks -/

omit [Scalar K] h in
/-- The object in a position is the one whose position it is. -/
theorem objectAt?_of_position? {id : ObjectId} {p : Nat} {o : Object K}
    (hpos : ix.position? id = some p) (hget : s.get? id = some o) :
    objectAt? s ix p = some o := by
  simp [objectAt?, Index.position?_eq_some hpos, hget]

/-- Objects that are named by one class are related. -/
theorem related_of_classId_eq {a b : ObjectId} {p q : Nat} (hp : ix.position? a = some p)
    (hq : ix.position? b = some q) (heq : classId ix c.relation a = classId ix c.relation b) :
    c.relation p q := by
  have hp' := Index.position?_of_getElem? h.sound.nodup (classId_of_position? c.relation hp)
  have hq' := Index.position?_of_getElem? h.sound.nodup (classId_of_position? c.relation hq)
  rw [heq, hq'] at hp'
  have hleast : c.relation p (sInf {x | c.relation q x}) :=
    Option.some.inj hp' ▸ related_least c.relation p
  exact c.relation.trans hleast (c.relation.symm (related_least c.relation q))

/-- The objects with a copy refer to objects with a copy. -/
theorem covered_of_refers {a b : ObjectId} (ha : Covered ix c order a) (hab : s.Refers a b) :
    Covered ix c order b := by
  obtain ⟨p, hp, hmem⟩ := ha
  obtain ⟨o, hget, hb⟩ := Scene.exists_get?_of_refers hab
  obtain ⟨rid, x, hrid, hx⟩ := h.ordered.object _ hmem
  have hrep : objectAt? s ix (c.representative p) = some x := by simp [objectAt?, hrid, hx]
  -- the representative refers to an object of the same class
  have htargets := related_targets h.sound h.least (h.represented p)
    (objectAt?_of_position? hp hget) hrep
  have hclass : classId ix c.relation b ∈ x.targets.map (classId ix c.relation) :=
    htargets ▸ List.mem_map_of_mem hb
  obtain ⟨b', hb', heq⟩ := List.mem_map.mp hclass
  obtain ⟨q', hq', hmem'⟩ := h.ordered.closed _ hmem rid b' hrid (Scene.refers_of_get? hx hb')
  have hbids := (h.sound.rank_lt (List.mem_of_getElem? (Index.position?_eq_some hp)) hab).1
  have hq := Index.position?_of_getElem? h.sound.nodup (Index.Sound.getElem?_idxOf hbids)
  refine ⟨_, hq, ?_⟩
  have hrelated : c.relation q' (ix.ids.idxOf b) := h.related_of_classId_eq hq' hq heq
  have hsame : c.representative q' = c.representative (ix.ids.idxOf b) := hrelated
  exact hsame ▸ hmem'

end Copied

/-- The number of copies of lighter objects. -/
def copyRank (s : Scene K) (ix : Index) (order : List Nat) (id : ObjectId) : Nat :=
  (order.filter fun r => decide ((weightAt s ix r).getD 0 < ix.weight s id)).length

namespace Copied

variable (h : Copied s ix settings c order out)

include h

/-- A representative weighs what its objects weigh. -/
theorem weightAt_representative {id : ObjectId} {p : Nat} (hp : ix.position? id = some p) :
    (weightAt s ix (c.representative p)).getD 0 = ix.weight s id := by
  rw [← related_weight h.sound h.least (h.represented p), weightAt, Index.position?_eq_some hp]
  rfl

/-- References go down in rank. -/
theorem copyRank_lt {a b : ObjectId} (ha : Covered ix c order a) (hab : s.Refers a b) :
    copyRank s ix order b < copyRank s ix order a := by
  obtain ⟨q, hq, hmem⟩ := h.covered_of_refers ha hab
  obtain ⟨p, hp, -⟩ := ha
  have hlighter := Index.weight_lt h.sound (List.mem_of_getElem? (Index.position?_eq_some hp)) hab
  have hweight := h.weightAt_representative hq
  -- the copy of what is referred to is counted for the one and not for the other
  refine length_filter_lt_length_filter (x := c.representative q) ?_ hmem ?_ ?_
  · intro r hr
    simp only [decide_eq_true_eq] at hr ⊢
    omega
  · simp only [decide_eq_true_eq]
    omega
  · simp only [decide_eq_false_iff_not]
    omega

theorem copyRank_lt_length {id : ObjectId} (hid : Covered ix c order id) :
    copyRank s ix order id < order.length := by
  obtain ⟨p, hp, hmem⟩ := hid
  have hweight := h.weightAt_representative hp
  have hlt : copyRank s ix order id < (order.filter fun _ => true).length := by
    refine length_filter_lt_length_filter (x := c.representative p) (fun _ _ => rfl) hmem rfl ?_
    simp only [decide_eq_false_iff_not]
    omega
  simpa using hlt

/-- Ranks show that what is covered is closed under references. -/
theorem ranked : s.Ranked (Covered ix c order) (copyRank s ix order) where
  object := by
    rintro id ⟨p, hp, -⟩
    obtain ⟨o, ho, -⟩ := h.sound.object id (List.mem_of_getElem? (Index.position?_eq_some hp))
    exact ⟨o, ho⟩
  closed := h.covered_of_refers
  descends := h.copyRank_lt
  bounded := by
    intro id hid
    have hlt := h.copyRank_lt_length hid
    have hle := h.ordered.length_le
    have hsize := h.sound.size_le
    omega

/-! ## Copies are counterparts -/

/-- An object is the representative of its class or has its key, which names copies. -/
theorem exists_representative {id : ObjectId} {p : Nat} {o : Object K}
    (hp : ix.position? id = some p) (hmem : c.representative p ∈ order)
    (hget : s.get? id = some o) :
    ∃ x, objectAt? s ix (c.representative p) = some x ∧
      (x = o ∨ ∃ k, o.mergeKey? (copyId ix c order) = some k ∧
        x.mergeKey? (copyId ix c order) = some k) := by
  obtain ⟨rid, x, hrid, hx⟩ := h.ordered.object _ hmem
  have hxat : objectAt? s ix (c.representative p) = some x := by simp [objectAt?, hrid, hx]
  have hoat := objectAt?_of_position? hp hget
  refine ⟨x, hxat, ?_⟩
  rcases forced_of_isLeast h.sound.nodup h.least (h.represented p) with heq | ⟨k, hkp, hkr⟩
  · rw [← heq, hoat] at hxat
    exact Or.inl (Option.some.inj hxat).symm
  · obtain ⟨y, hy, -, hky⟩ := exists_object_of_keyUnder hkp
    obtain ⟨z, hz, -, hkz⟩ := exists_object_of_keyUnder hkr
    obtain rfl := Option.some.inj (hoat.symm.trans hy)
    obtain rfl := Option.some.inj (hxat.symm.trans hz)
    refine Or.inr ⟨k.mapIds (copyId ix c order), ?_, ?_⟩
    · rw [← copyId_comp_classId h.sound.nodup, Object.mergeKey?_comp, hky]
      rw [copyId_comp_classId h.sound.nodup]
      rfl
    · rw [← copyId_comp_classId h.sound.nodup, Object.mergeKey?_comp, hkz]
      rw [copyId_comp_classId h.sound.nodup]
      rfl

end Copied

/-- The copy of an object, or of one with the same key, is a counterpart. -/
theorem counterpart_copyObject [SignBlind K] {f : ObjectId → ObjectId} {o x : Object K}
    (hx : x = o ∨ ∃ k, o.mergeKey? f = some k ∧ x.mergeKey? f = some k) (representative : Nat) :
    o.Counterpart Alike f (copyObject c settings f representative x) := by
  have hkeys : x.attached.animators.map (·.mapIds f) = o.attached.animators.map (·.mapIds f) ∧
      (o.content.mapIds f).Counterpart Alike id (x.content.mapIds f) := by
    rcases hx with rfl | ⟨k, hko, hkx⟩
    · exact ⟨rfl, .refl _⟩
    · have heq := (Object.eq_of_mergeKey? hko).symm.trans (Object.eq_of_mergeKey? hkx)
      obtain ⟨hcontent, hanimators⟩ := MergeKey.mk.inj heq
      exact ⟨hanimators.symm,
        Content.counterpart_of_mapScalars_eq SignBlind.alike_of_word hcontent⟩
  have hrenamed : o.content.Counterpart Alike f (x.content.mapIds f) :=
    o.content.counterpart_mapIds.trans hkeys.2
  refine ⟨(copyObject_animators c settings f representative x).trans hkeys.1, ?_⟩
  rcases copyObject_content c settings f representative x with h | h
  · rw [h]
    exact hrenamed
  · rw [h]
    exact hrenamed.trans (Content.counterpart_withoutDefaults SignBlind.alike_of_beq _)

/-- Drawn objects are never merged. -/
theorem mergeKey?_of_isDrawn {f : ObjectId → ObjectId} {o : Object K}
    (h : o.content.isDrawn = true) : o.mergeKey? f = none := by
  unfold Object.mergeKey? Object.isMergeable Object.kind
  cases hcontent : o.content with
  | containerVisual => rfl
  | shapeVisual => rfl
  | containerShape => rfl
  | spriteShape => rfl
  | _ => simp [hcontent, Content.isDrawn] at h

namespace Copied

variable (h : Copied s ix settings c order out)

include h

/-- A drawn object is copied itself. -/
theorem eq_copyObject {id : ObjectId} {o o' : Object K}
    (hf : Facing Alike (copyId ix c order) (Covered ix c order) s out id o o')
    (hdrawn : o.content.isDrawn = true) :
    ∃ representative, o' = copyObject c settings (copyId ix c order) representative o := by
  obtain ⟨p, hp, hmem⟩ := hf.mem
  obtain ⟨x, hxat, hx⟩ := h.exists_representative hp hmem hf.left
  have hself : x = o := by
    rcases hx with rfl | ⟨k, hk, -⟩
    · rfl
    · rw [mergeKey?_of_isDrawn hdrawn] at hk
      nomatch hk
  have hright := h.get?_copyId hp hmem hxat
  rw [hf.right, hself] at hright
  exact ⟨_, Option.some.inj hright⟩

variable [SignBlind K]

/-- **A copy mirrors the scene.** -/
theorem mirrors : s.Mirrors Alike (copyId ix c order) (Covered ix c order)
    (copyRank s ix order) out where
  ranked := h.ranked
  bounded := fun hid => h.size_eq ▸ h.copyRank_lt_length hid
  counterpart := by
    rintro id o ⟨p, hp, hmem⟩ hget
    obtain ⟨x, hxat, hx⟩ := h.exists_representative hp hmem hget
    exact ⟨_, h.get?_copyId hp hmem hxat, counterpart_copyObject hx _⟩

/-- **Drawn objects and their copies draw likewise**, in worlds that are equal up to the sign of
zeros. -/
theorem likewise (time : Int64) {id : ObjectId} {o o' : Object K}
    (hf : Facing Alike (copyId ix c order) (Covered ix c order) s out id o o')
    (hdrawn : o.content.isDrawn = true) :
    Likewise Alike (copyId ix c order) s out time (fun _ => Matrix3x2.Like Alike)
      (Matrix3x2.Like Alike) id o o' := by
  obtain ⟨representative, rfl⟩ := h.eq_copyObject hf hdrawn
  have hplace : ∀ m m' w w' : Matrix3x2 K, m.Like Alike m' → w.Like Alike w' →
      (m.andThen w).Like Alike (m'.andThen w') := fun _ _ _ _ hm hw => hm.andThen hw
  have hkept : ∀ cs : List ObjectId, Inside s time (copyId ix c order)
      (fun _ => Matrix3x2.Like Alike) (Matrix3x2.Like Alike) cs (cs.map (copyId ix c order)) :=
    fun cs => Inside.of_map fun _ _ _ _ hw => hw
  -- each setting is copied as it is or without defaults
  have hcopy := copyObject_content c settings (copyId ix c order) representative o
  cases hcontent : o.content with
  | containerVisual v cs =>
    rw [hcontent] at hcopy
    rcases hcopy with hcopy | hcopy
    · exact .of_visual h.mirrors hf (.inl hcontent) (.inl hcopy)
        (.of_mapIds (.refl _)) hplace (hkept cs)
    · exact .of_visual h.mirrors hf (.inl hcontent) (.inl hcopy)
        (.of_mapIds (Visual.like_withoutDefaults SignBlind.alike_of_beq _)) hplace (hkept cs)
  | shapeVisual v cs =>
    rw [hcontent] at hcopy
    rcases hcopy with hcopy | hcopy
    · exact .of_visual h.mirrors hf (.inr hcontent) (.inr hcopy)
        (.of_mapIds (.refl _)) hplace (hkept cs)
    · exact .of_visual h.mirrors hf (.inr hcontent) (.inr hcopy)
        (.of_mapIds (Visual.like_withoutDefaults SignBlind.alike_of_beq _)) hplace (hkept cs)
  | containerShape t cs =>
    rw [hcontent] at hcopy
    rcases hcopy with hcopy | hcopy
    · exact .of_containerShape h.mirrors hf hcontent hcopy (.refl t) hplace (hkept cs)
    · exact .of_containerShape h.mirrors hf hcontent hcopy
        (t.like_withoutDefaults SignBlind.alike_of_beq) hplace (hkept cs)
  | spriteShape a =>
    rw [hcontent] at hcopy
    rcases hcopy with hcopy | hcopy
    · exact .of_sprite h.mirrors hf hcontent hcopy
        ⟨rfl, rfl, rfl, .refl Respects.refl 1 _⟩ (.refl a.transform) hplace
    · exact .of_sprite h.mirrors hf hcontent hcopy
        ⟨rfl, rfl, rfl, .dropDefault Respects.refl SignBlind.alike_of_beq 1 _⟩
        (a.transform.like_withoutDefaults SignBlind.alike_of_beq) hplace
  | _ => simp [hcontent, Content.isDrawn] at hdrawn

end Copied

/-- **Copying cannot be seen.**  Of every scene that is indexed and copied, whatever the settings,
the scene and its copy fail to be sampled at the same times, and at every other time they show the
same samples one by one, in every field, up to the sign of zeros. -/
theorem copy_sampleAt_agree [SignBlind K] (hix : Index.build s = .ok ix)
    (hcopy : copy s ix (Classes.ofIndex s ix settings) settings = .ok out) (time : Int64) :
    Agree (List.Forall₂ (Sample.Like (Matrix3x2.Like Alike) Alike)) (s.sampleAt time)
      (out.sampleAt time) := by
  obtain ⟨order, h⟩ := copied_of_copy hix hcopy
  exact sampleAt_agree h.mirrors (fun _ _ _ hf hdrawn => h.likewise time hf hdrawn)
    h.ordered.root h.root.symm (.refl _)

end

/-- The copy of the specimen: the two brushes are one, and the scale that says nothing is unset. -/
def specimenCopy : Scene (BitVec 32) where
  root := ⟨5⟩
  objects := #[
    { content := .ellipseGeometry {} none (some ⟨4, 4⟩) },
    { content := .colorBrush (some (.rgb 255 0 0)) },
    { content := .spriteShape {
        transform := { rotation := some 90 }
        geometry := some ⟨0⟩, fillBrush := some ⟨1⟩, strokeBrush := some ⟨1⟩ } },
    { content := .containerShape { matrix := some ⟨2, 0, 0, 3, 7, 8⟩ } [⟨2⟩] },
    { content := .containerShape {} [] },
    { content := .shapeVisual { offset := some ⟨5, 6, 0⟩ } [⟨3⟩, ⟨4⟩] }]

/-- The copy of the specimen looks like the specimen, up to the sign of zero. -/
theorem specimenCopy_agrees :
    Index.build specimen = .ok specimenIndex ∧
    copy specimen specimenIndex (Classes.ofIndex specimen specimenIndex {}) {} = .ok specimenCopy ∧
    Agree (List.Forall₂ (Sample.Like (Matrix3x2.Like Alike) Alike)) (specimen.sampleAt 0)
      (specimenCopy.sampleAt 0) := by
  have hcopy : copy specimen specimenIndex (Classes.ofIndex specimen specimenIndex {}) {} =
      .ok specimenCopy := by cbv
  exact ⟨specimen_build, hcopy, copy_sampleAt_agree specimen_build hcopy 0⟩

end Merge
end Diorama
