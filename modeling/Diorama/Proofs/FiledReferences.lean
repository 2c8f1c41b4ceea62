/-
  What an index says about a scene.

  Besides the order of its objects, an index knows who refers to an object: every slot of an indexed
  object is filed under what the slot refers to, with the position of its holder.  The walk files a
  slot when it follows the reference, and it follows the references of an object after it has
  entered it.  So one account is kept from step to step: what has been filed and what is due
  (`Index.due`, the references that are still to be followed) are together the slots of the objects
  that have been entered (`Index.held`).  In the end nothing is due.

  Within an object the slots differ (`Object.nodup_slots`), and positions differ between objects, so
  a slot is filed once.  Counting what is filed under an object gives its reference count.

  `build_describes` puts all of this together: the index and the walk from the root agree on what is
  reachable, in which order, and how often it is referred to.
-/
import Mathlib
import Diorama.Proofs.VisitOrder

namespace Diorama

/-! ## The slots of an object -/

/-- The number of a slot among those of its sort. -/
def Slot.number : Slot → Nat
  | .child i | .source i | .keyFrameEasing i | .keyFramePath i | .parameter i | .animation i
  | .controller i => i
  | .clip | .geometry | .fillBrush | .strokeBrush | .path => 0

/-- Whether an animator sits in the slot. -/
def Slot.isAttached : Slot → Bool
  | .animation _ => true
  | .controller _ => true
  | _ => false

namespace Reference

/-- Numbered groups of references, each with slots of its own number. -/
theorem nodup_slots_numbered {α : Type} (refs : α → Nat → List Reference)
    (hown : ∀ a i, ((refs a i).map (·.slot)).Nodup)
    (hnumber : ∀ a i, ∀ r ∈ refs a i, r.slot.number = i) (l : List α) :
    ((l.zipIdx.flatMap fun (a, i) => refs a i).map (·.slot)).Nodup := by
  rw [List.map_flatMap, List.nodup_flatMap]
  refine ⟨fun e _ => hown e.1 e.2, ?_⟩
  have hnumbers : (l.zipIdx.map Prod.snd).Nodup := by
    rw [List.zipIdx_map_snd]
    exact List.nodup_range'
  refine (List.pairwise_map.mp hnumbers).imp fun {e e'} hne => ?_
  intro slot hslot hslot'
  obtain ⟨r, hr, rfl⟩ := List.mem_map.mp hslot
  obtain ⟨r', hr', heq⟩ := List.mem_map.mp hslot'
  have hr := hnumber _ _ r hr
  have hr' := hnumber _ _ r' hr'
  rw [heq] at hr'
  exact hne (hr.symm.trans hr')

/-- Members of one list are in different slots, as they are numbered. -/
theorem nodup_slots_many {slot : Nat → Slot} (hnumber : ∀ i, (slot i).number = i)
    (ids : List ObjectId) : ((many slot ids).map (·.slot)).Nodup := by
  have hmany : many slot ids = ids.zipIdx.flatMap fun e => [⟨slot e.2, e.1⟩] := by
    rw [many, ← List.flatMap_pure_eq_map]
    rfl
  rw [hmany]
  refine nodup_slots_numbered (fun id i => [⟨slot i, id⟩])
    (fun _ _ => List.nodup_singleton _) ?_ ids
  intro id i r hr
  rw [List.mem_singleton.mp hr]
  exact hnumber i

/-- A slot that may be unset, followed by numbered ones of another sort. -/
theorem nodup_slots_one_many {first : Slot} {slot : Nat → Slot} (hnumber : ∀ i, (slot i).number = i)
    (hne : ∀ i, slot i ≠ first) (id : Option ObjectId) (ids : List ObjectId) :
    ((one first id ++ many slot ids).map (·.slot)).Nodup := by
  rw [List.map_append]
  refine List.Nodup.append ?_ (nodup_slots_many hnumber ids) ?_
  · cases id with
    | none => exact List.nodup_nil
    | some a => exact List.nodup_singleton _
  · intro s hfirst hmany
    obtain ⟨r, hr, rfl⟩ := List.mem_map.mp hmany
    obtain ⟨⟨a, i⟩, -, rfl⟩ := List.mem_map.mp hr
    cases id with
    | none => cases hfirst
    | some b => exact hne i (List.mem_singleton.mp hfirst)

/-- A key frame has a value slot and an easing slot. -/
theorem nodup_slots_ofKeyFrame {K : Type} (frame : KeyFrame K) (i : Nat) :
    ((ofKeyFrame frame i).map (·.slot)).Nodup := by
  obtain ⟨progress, value, easing⟩ := frame
  cases value <;> cases easing <;> simp [ofKeyFrame, one]

/-- The slots of a key frame have its number. -/
theorem number_of_mem_ofKeyFrame {K : Type} {frame : KeyFrame K} {i : Nat} {r : Reference}
    (h : r ∈ ofKeyFrame frame i) : r.slot.number = i := by
  obtain ⟨progress, value, easing⟩ := frame
  rcases List.mem_append.mp h with h | h
  · cases value with
    | path id =>
      obtain rfl := List.mem_singleton.mp h
      rfl
    | _ => cases h
  · obtain ⟨a, -, rfl⟩ := List.mem_map.mp h
    rfl

/-- An animator has two slots, which differ. -/
theorem nodup_slots_ofAnimator (animator : Animator) (i : Nat) :
    ((ofAnimator animator i).map (·.slot)).Nodup := by
  obtain ⟨target, animation, controller⟩ := animator
  cases controller <;> simp [ofAnimator, one]

/-- The slots of an animator have its number and are apart from those of a content. -/
theorem slot_of_mem_ofAnimator {animator : Animator} {i : Nat} {r : Reference}
    (h : r ∈ ofAnimator animator i) : r.slot.number = i ∧ r.slot.isAttached = true := by
  obtain ⟨target, animation, controller⟩ := animator
  cases controller with
  | none =>
    obtain rfl := List.mem_singleton.mp h
    exact ⟨rfl, rfl⟩
  | some c =>
    rcases List.mem_cons.mp h with rfl | h
    · exact ⟨rfl, rfl⟩
    · obtain rfl := List.mem_singleton.mp h
      exact ⟨rfl, rfl⟩

end Reference

/-- No two references of a content are in one slot. -/
theorem Content.nodup_slots {K : Type} (content : Content K) :
    (content.references.map (·.slot)).Nodup := by
  cases content with
  | containerVisual visual children =>
    exact Reference.nodup_slots_one_many (fun _ => rfl)
      (fun _ => Slot.noConfusion) visual.clip children
  | shapeVisual visual shapes =>
    exact Reference.nodup_slots_one_many (fun _ => rfl)
      (fun _ => Slot.noConfusion) visual.clip shapes
  | containerShape transform shapes => exact Reference.nodup_slots_many (fun _ => rfl) shapes
  | spriteShape sprite =>
    obtain ⟨transform, geometry, fillBrush, strokeBrush, stroke⟩ := sprite
    cases geometry <;> cases fillBrush <;> cases strokeBrush <;> simp [references, Reference.one]
  | pathGeometry trim p => cases p <;> simp [references, Reference.one]
  | path source => cases source <;> simp [references, Reference.one]
  | geometry outline =>
    cases outline with
    | figures fillMode fs => exact List.nodup_nil
    | group fillMode geometries => exact Reference.nodup_slots_many (fun _ => rfl) geometries
    | transformed source matrix => exact List.nodup_singleton _
  | geometricClip g => cases g <;> simp [references, Reference.one]
  | keyFrameAnimation animation =>
    exact Reference.nodup_slots_numbered Reference.ofKeyFrame Reference.nodup_slots_ofKeyFrame
      (fun _ _ _ => Reference.number_of_mem_ofKeyFrame) animation.frames
  | expressionAnimation animation => exact Reference.nodup_slots_many (fun _ => rfl) _
  | _ => exact List.nodup_nil

/-- Slots of a content are not those of animators. -/
theorem Content.slot_isAttached {K : Type} {content : Content K} {r : Reference}
    (h : r ∈ content.references) : r.slot.isAttached = false := by
  have hone : ∀ {slot : Slot} {id : Option ObjectId}, slot.isAttached = false →
      r ∈ Reference.one slot id → r.slot.isAttached = false := by
    intro slot id hslot hr
    obtain ⟨a, -, rfl⟩ := List.mem_map.mp hr
    exact hslot
  have hmany : ∀ {slot : Nat → Slot} {ids : List ObjectId}, (∀ i, (slot i).isAttached = false) →
      r ∈ Reference.many slot ids → r.slot.isAttached = false := by
    intro slot ids hslot hr
    obtain ⟨⟨a, i⟩, -, rfl⟩ := List.mem_map.mp hr
    exact hslot i
  cases content with
  | containerVisual visual children =>
    exact (List.mem_append.mp h).elim (hone rfl) (hmany fun _ => rfl)
  | shapeVisual visual shapes =>
    exact (List.mem_append.mp h).elim (hone rfl) (hmany fun _ => rfl)
  | containerShape transform shapes => exact hmany (fun _ => rfl) h
  | spriteShape sprite =>
    rcases List.mem_append.mp h with h | h
    · exact (List.mem_append.mp h).elim (hone rfl) (hone rfl)
    · exact hone rfl h
  | pathGeometry trim p => exact hone rfl h
  | path source => exact hone rfl h
  | geometry outline =>
    cases outline with
    | figures fillMode fs => cases h
    | group fillMode geometries => exact hmany (fun _ => rfl) h
    | transformed source matrix =>
      obtain rfl := List.mem_singleton.mp h
      rfl
  | geometricClip g => exact hone rfl h
  | keyFrameAnimation animation =>
    obtain ⟨⟨⟨progress, value, easing⟩, i⟩, -, h⟩ := List.mem_flatMap.mp h
    refine (List.mem_append.mp h).elim (fun h => ?_) (hone rfl)
    cases value with
    | path id =>
      obtain rfl := List.mem_singleton.mp h
      rfl
    | _ => cases h
  | expressionAnimation animation => exact hmany (fun _ => rfl) h
  | _ => cases h

/-- **No slot of an object holds two references.** -/
theorem Object.nodup_slots {K : Type} (o : Object K) : (o.references.map (·.slot)).Nodup := by
  rw [references, List.map_append]
  refine List.Nodup.append o.content.nodup_slots ?_ ?_
  · exact Reference.nodup_slots_numbered Reference.ofAnimator Reference.nodup_slots_ofAnimator
      (fun _ _ _ hr => (Reference.slot_of_mem_ofAnimator hr).1) o.attached.animators
  · intro slot hslot hslot'
    obtain ⟨r, hr, rfl⟩ := List.mem_map.mp hslot
    obtain ⟨r', hr', heq⟩ := List.mem_map.mp hslot'
    obtain ⟨⟨animator, i⟩, -, hr'⟩ := List.mem_flatMap.mp hr'
    have hattached := (Reference.slot_of_mem_ofAnimator hr').2
    rw [heq, Content.slot_isAttached hr] at hattached
    cases hattached

/-! ## The references of a scene -/

namespace Scene

variable {K : Type} {s : Scene K}

/-- The references of the object with an id. -/
def referencesOf (s : Scene K) (id : ObjectId) : List Reference :=
  (s.get? id).elim [] Object.references

theorem targetsOf_eq_map (s : Scene K) (id : ObjectId) :
    s.targetsOf id = (s.referencesOf id).map (·.target) := by
  unfold targetsOf referencesOf
  cases s.get? id <;> rfl

/-- No two references of an object are in one slot. -/
theorem nodup_slots_referencesOf (s : Scene K) (id : ObjectId) :
    ((s.referencesOf id).map (·.slot)).Nodup := by
  unfold referencesOf
  cases s.get? id with
  | none => exact List.nodup_nil
  | some o => exact o.nodup_slots

theorem mem_referencesOf_iff {id : ObjectId} {r : Reference} :
    r ∈ s.referencesOf id ↔ ∃ o, s.get? id = some o ∧ r ∈ o.references := by
  unfold referencesOf
  cases s.get? id <;> simp

/-- Every reachable object has its number of slots in the list of counts. -/
theorem lookup_referenceCounts {id : ObjectId} (h : id ∈ s.reachable) :
    s.referenceCounts.lookup id = some (s.slotTargets.count id) := by
  have hlookup : ∀ ids : List ObjectId, id ∈ ids →
      (ids.map fun a => (a, s.slotTargets.count a)).lookup id = some (s.slotTargets.count id) := by
    intro ids hid
    induction ids with
    | nil => cases hid
    | cons a ids ih =>
      by_cases heq : id = a
      · simp [heq]
      · rw [List.map_cons, List.lookup_cons, beq_false_of_ne heq]
        exact ih ((List.mem_cons.mp hid).resolve_left heq)
  exact hlookup _ (by simp [h])

end Scene

namespace Index

variable {K : Type} {s : Scene K} {ix : Index}

/-! ## The account -/

/-- A slot at a position, under the object that it refers to. -/
def entry (position : Nat) (r : Reference) : ObjectId × InReference :=
  (r.target, ⟨position, r.slot⟩)

/-- What has been filed, each slot under an object. -/
def filed (ix : Index) : List (ObjectId × InReference) :=
  ix.nodes.flatMap fun n => n.inReferences.map (n.object, ·)

/-- What is still to be filed. -/
def due : List Task → List (ObjectId × InReference)
  | [] => []
  | .follow _ p r :: rest => entry p r :: due rest
  | .leave _ :: rest => due rest

/-- The slots of objects at their positions. -/
def held (s : Scene K) (ids : List ObjectId) : List (ObjectId × InReference) :=
  ids.zipIdx.flatMap fun (a, p) => (s.referencesOf a).map (entry p)

/-- A visit owes one entry for each reference of the object. -/
theorem due_visit (o : Object K) (id : ObjectId) (p : Nat) (rest : List Task) :
    due (Task.visit o id p ++ rest) = o.references.map (entry p) ++ due rest := by
  have hfollow : ∀ rs : List Reference,
      due (rs.map (Task.follow id p) ++ (.leave p :: rest)) = rs.map (entry p) ++ due rest := by
    intro rs
    induction rs with
    | nil => rfl
    | cons r rs ih => exact congrArg (entry p r :: ·) ih
  simpa [Task.visit] using hfollow o.references

theorem held_concat (s : Scene K) (ids : List ObjectId) (id : ObjectId) :
    held s (ids ++ [id]) = held s ids ++ (s.referencesOf id).map (entry ids.length) := by
  simp [held, List.zipIdx_append]

/-- Entering an object files its entries and keeps those that are filed. -/
theorem filed_enter (ix : Index) (id : ObjectId) (xs : List InReference) :
    (ix.enter id xs).filed = ix.filed ++ xs.map (id, ·) := by
  simp [filed, enter]

/-- A slot that is recorded is filed under the object at its position. -/
theorem filed_refer {p : Nat} {id : ObjectId} (h : ix.ids[p]? = some id) (x : InReference) :
    (ix.refer p x).filed.Perm (ix.filed ++ [(id, x)]) := by
  unfold filed refer
  rw [ids, List.getElem?_map] at h
  generalize ix.nodes = nodes at h
  induction nodes generalizing p with
  | nil => cases h
  | cons n nodes ih =>
    cases p with
    | zero =>
      obtain rfl : n.object = id := Option.some.inj h
      simp only [List.modify_zero_cons, List.flatMap_cons, List.map_append, List.map_singleton,
        List.append_assoc]
      exact List.perm_append_comm.append_left _
    | succ p =>
      simp only [List.modify_succ_cons, List.flatMap_cons, List.append_assoc]
      exact (ih h).append_left _

/-- **The account is kept**: what is filed and what is due are the slots of what has been
entered. -/
theorem filed_of_walk {tasks : List Task} {out : Index} (hwalk : walk s tasks ix = .ok out)
    (h : (ix.filed ++ due tasks).Perm (held s ix.ids)) : out.filed.Perm (held s out.ids) := by
  fun_induction walk s tasks ix with
  | case1 ix =>
    obtain rfl := Except.ok.inj hwalk
    simpa [due] using h
  | case2 ix p rest ih => exact ih hwalk h
  | case3 ix holder position r rest p hpos hp ih =>
    refine ih hwalk ?_
    rw [ids_refer]
    have hfiled := filed_refer (position?_eq_some hpos) ⟨position, r.slot⟩
    refine ((hfiled.append_right _).trans ?_).trans h
    rw [List.append_assoc]
    rfl
  | case4 => cases hwalk
  | case5 => cases hwalk
  | case6 => cases hwalk
  | case7 ix holder position r rest hpos o hget hframes ih =>
    refine ih hwalk ?_
    have hown : s.referencesOf r.target = o.references := by rw [Scene.referencesOf, hget]; rfl
    rw [filed_enter, due_visit, ids_enter, held_concat, hown, ← size_eq_length_ids]
    -- the slot by which the object was entered is filed, and its own slots become due
    refine List.Perm.trans ?_ (h.append_right _)
    simp only [List.append_assoc]
    exact (List.perm_append_comm.append_left _).append_left _

/-- **An index files the references of everything reachable, each once.** -/
theorem filed_perm_held (h : build s = .ok ix) : ix.filed.Perm (held s s.reachable) := by
  rw [← ids_eq_reachable h]
  rw [build] at h
  cases hget : s.get? s.root with
  | none =>
    rw [hget] at h
    cases h
  | some o =>
    rw [hget] at h
    obtain ⟨-, -, hwalk⟩ := exists_of_bind_ok h
    refine filed_of_walk hwalk ?_
    have hvisit := due_visit o s.root 0 []
    have hown : s.referencesOf s.root = o.references := by rw [Scene.referencesOf, hget]; rfl
    rw [List.append_nil] at hvisit
    rw [hvisit]
    simp [filed, held, due, enter, ids, hown]

/-! ## What the account says -/

/-- Positions tell the slots of different objects apart. -/
theorem nodup_held (s : Scene K) (ids : List ObjectId) : ((held s ids).map Prod.snd).Nodup := by
  induction ids using List.reverseRecOn with
  | nil => exact List.nodup_nil
  | append_singleton ids id ih =>
    rw [held_concat, List.map_append, List.map_map]
    refine List.Nodup.append ih ?_ ?_
    · refine List.Nodup.of_map InReference.slot ?_
      rw [List.map_map]
      exact s.nodup_slots_referencesOf id
    · intro x hx hx'
      obtain ⟨e, he, rfl⟩ := List.mem_map.mp hx
      obtain ⟨⟨a, p⟩, hap, he⟩ := List.mem_flatMap.mp he
      obtain ⟨r, -, rfl⟩ := List.mem_map.mp he
      obtain ⟨r', -, heq⟩ := List.mem_map.mp hx'
      have hlt := List.snd_lt_of_mem_zipIdx hap
      have hpos : ids.length = p := congrArg InReference.holder heq
      omega

/-- An entry is held exactly if it is a reference of the object in its holder's position. -/
theorem mem_held_iff {ids : List ObjectId} {id : ObjectId} {x : InReference} :
    (id, x) ∈ held s ids ↔ ∃ a o r, ids[x.holder]? = some a ∧ s.get? a = some o ∧
      r ∈ o.references ∧ r.slot = x.slot ∧ r.target = id := by
  constructor
  · intro h
    obtain ⟨⟨a, p⟩, hap, h⟩ := List.mem_flatMap.mp h
    obtain ⟨r, hr, heq⟩ := List.mem_map.mp h
    cases heq
    obtain ⟨o, ho, hr⟩ := Scene.mem_referencesOf_iff.mp hr
    exact ⟨a, o, r, List.mem_zipIdx_iff_getElem?.mp hap, ho, hr, rfl, rfl⟩
  · rintro ⟨a, o, r, ha, ho, hr, hslot, rfl⟩
    refine List.mem_flatMap.mpr ⟨(a, x.holder), List.mem_zipIdx_iff_getElem?.mpr ha, ?_⟩
    refine List.mem_map.mpr ⟨r, Scene.mem_referencesOf_iff.mpr ⟨o, ho, hr⟩, ?_⟩
    rw [entry, hslot]

/-- Without their slots, the entries are the targets. -/
theorem map_fst_held (s : Scene K) (ids : List ObjectId) :
    (held s ids).map Prod.fst = ids.flatMap s.targetsOf := by
  induction ids using List.reverseRecOn with
  | nil => rfl
  | append_singleton ids id ih =>
    rw [held_concat, List.map_append, ih, List.map_map, List.flatMap_append, List.flatMap_singleton,
      Scene.targetsOf_eq_map]
    rfl

/-- What is filed under an object stands in its node. -/
theorem mem_filed_iff (hnodup : ix.ids.Nodup) {n : Node} (hn : n ∈ ix.nodes) {x : InReference} :
    (n.object, x) ∈ ix.filed ↔ x ∈ n.inReferences := by
  constructor
  · intro h
    obtain ⟨n', hn', h⟩ := List.mem_flatMap.mp h
    obtain ⟨y, hy, heq⟩ := List.mem_map.mp h
    obtain ⟨hobject, rfl⟩ := Prod.mk.inj heq
    rwa [List.inj_on_of_nodup_map hnodup hn hn' hobject.symm]
  · intro h
    exact List.mem_flatMap.mpr ⟨n, hn, List.mem_map_of_mem h⟩

/-- The length of a node's list is how often its object is filed under. -/
theorem count_filed (hnodup : ix.ids.Nodup) {n : Node} (hn : n ∈ ix.nodes) :
    (ix.filed.map Prod.fst).count n.object = n.inReferences.length := by
  have hfst : ix.filed.map Prod.fst =
      ix.nodes.flatMap fun m => List.replicate m.inReferences.length m.object := by
    simp [filed, List.map_flatMap, Function.comp_def, List.map_const']
  obtain ⟨l, r, hlr⟩ := List.append_of_mem hn
  have hobjects : n.object ∉ (l ++ r).map Node.object := by
    rw [ids, hlr, List.map_append, List.map_cons, List.nodup_middle, List.nodup_cons] at hnodup
    rw [List.map_append]
    exact hnodup.1
  have hothers : ∀ nodes ⊆ l ++ r,
      (nodes.flatMap fun m => List.replicate m.inReferences.length m.object).count n.object =
        0 := by
    intro nodes hsub
    refine List.count_eq_zero.mpr fun hmem => ?_
    obtain ⟨m, hm, hmem⟩ := List.mem_flatMap.mp hmem
    rw [List.eq_of_mem_replicate hmem] at hobjects
    exact hobjects (List.mem_map_of_mem (hsub hm))
  rw [hfst, hlr, List.flatMap_append, List.flatMap_cons, List.count_append, List.count_append,
    hothers l (List.subset_append_left l r), hothers r (List.subset_append_right l r),
    List.count_replicate_self]
  omega

/-! ## The index as a whole -/

/-- What an index says about a scene. -/
structure Describes (ix : Index) (s : Scene K) : Prop where
  /-- The objects at positions 0, 1, 2, … are the reachable ones, in the order of the walk. -/
  ids : ix.ids = s.reachable
  position : ∀ id p, ix.position? id = some p ↔ s.reachable[p]? = some id
  postOrder_perm : ix.postOrder.Perm (List.range ix.size)
  root_last : ix.postOrder.getLast? = some 0
  /-- A reference leads to an object whose position comes before that of the holder. -/
  descends : ∀ a ∈ s.reachable, ∀ b, s.Refers a b → ∃ p q, ix.position? a = some p ∧
    ix.position? b = some q ∧ ix.postOrder.idxOf q < ix.postOrder.idxOf p
  /-- An object lists the slots that refer to it. -/
  filed : ∀ n ∈ ix.nodes, ∀ x, x ∈ n.inReferences ↔ ∃ a o r, ix.position? a = some x.holder ∧
    s.get? a = some o ∧ r ∈ o.references ∧ r.slot = x.slot ∧ r.target = n.object
  /-- All lists together hold a slot of an object once. -/
  once : (ix.nodes.flatMap (·.inReferences)).Nodup
  counts : ∀ n ∈ ix.nodes, s.referenceCounts.lookup n.object = some n.inReferences.length

/-- The root is left last: everything else ranks lower. -/
theorem Sound.getLast?_postOrder (h : ix.Sound s) : ix.postOrder.getLast? = some 0 := by
  have hnodup : ix.postOrder.Nodup := h.postOrder_perm.nodup_iff.mpr List.nodup_range
  have hlen : ix.postOrder.length = ix.size := by simpa using h.postOrder_perm.length_eq
  obtain ⟨hpos, hroot⟩ := List.getElem?_eq_some_iff.mp h.root
  have hzero : ix.ids.idxOf s.root = 0 := by
    rw [← hroot]
    exact h.nodup.idxOf_getElem 0 hpos
  rw [← size_eq_length_ids] at hpos
  -- the object at the last position is reached from the root, so it ranks no higher
  have hlast : ix.size - 1 < ix.postOrder.length := by omega
  have hp : ix.postOrder[ix.size - 1] < ix.ids.length := by
    rw [← size_eq_length_ids]
    exact List.mem_range.mp (h.postOrder_perm.subset (List.getElem_mem hlast))
  have hrank : ix.rank (ix.ids[ix.postOrder[ix.size - 1]]) = ix.size - 1 := by
    rw [rank, h.nodup.idxOf_getElem, hnodup.idxOf_getElem]
  have hle := (h.ranked.reaches_lower h.root_mem (h.reached _ (List.getElem_mem hp))).2
  have hlt := h.rank_lt_size h.root_mem
  have hrootRank : ix.postOrder.idxOf 0 = ix.size - 1 := by
    rw [← hzero]
    change ix.rank s.root = _
    omega
  rw [List.getLast?_eq_getElem?, hlen, List.getElem?_eq_some_iff]
  refine ⟨hlast, ?_⟩
  have hmem : 0 ∈ ix.postOrder := hzero ▸ h.idxOf_mem_postOrder h.root_mem
  have hget := List.getElem_idxOf (List.idxOf_lt_length_of_mem hmem)
  simpa only [hrootRank] using hget

/-- **An index describes its scene**: its positions are those of the walk from the root, an object
is left after all it refers to, and every slot is filed once, under what it refers to. -/
theorem build_describes (h : build s = .ok ix) : ix.Describes s := by
  have hsound := sound_of_build h
  have hids := ids_eq_reachable h
  have hposition : ∀ id p, ix.position? id = some p ↔ ix.ids[p]? = some id := fun id p =>
    ⟨position?_eq_some, position?_of_getElem? hsound.nodup⟩
  -- as lists of entries, what is filed is a rearrangement of what is held
  have hfiled := filed_perm_held h
  refine
    { ids := hids
      position := fun id p => by rw [hposition, hids]
      postOrder_perm := hsound.postOrder_perm
      root_last := hsound.getLast?_postOrder
      descends := fun a ha b hab => ?_
      filed := fun n hn x => ?_
      once := ?_
      counts := fun n hn => ?_ }
  · rw [← hids] at ha
    obtain ⟨hb, hlt⟩ := hsound.rank_lt ha hab
    exact ⟨_, _, (hposition _ _).mpr (Sound.getElem?_idxOf ha),
      (hposition _ _).mpr (Sound.getElem?_idxOf hb), hlt⟩
  · rw [← mem_filed_iff hsound.nodup hn, hfiled.mem_iff, mem_held_iff, ← hids]
    simp only [hposition]
  · have hsnd : ix.nodes.flatMap (·.inReferences) = ix.filed.map Prod.snd := by
      simp [Index.filed, List.map_flatMap, Function.comp_def]
    rw [hsnd, (hfiled.map Prod.snd).nodup_iff]
    exact nodup_held s s.reachable
  · have hmem : n.object ∈ s.reachable := by
      rw [← hids]
      exact List.mem_map_of_mem hn
    rw [Scene.lookup_referenceCounts hmem, ← count_filed hsound.nodup hn,
      (hfiled.map Prod.fst).count_eq, map_fst_held]
    rfl

/-- Two sprites that share a brush, one for its area and one for its outline. -/
def sharedBrush : Scene (BitVec 32) where
  root := ⟨3⟩
  objects := #[
    { content := .colorBrush none },
    { content := .spriteShape { fillBrush := some ⟨0⟩ } },
    { content := .spriteShape { strokeBrush := some ⟨0⟩ } },
    { content := .shapeVisual {} [⟨1⟩, ⟨2⟩] }]

/-- The index of the two sprites, with both slots filed under the brush. -/
def sharedBrushIndex : Index where
  nodes := [
    ⟨⟨3⟩, []⟩,
    ⟨⟨1⟩, [⟨0, .child 0⟩]⟩,
    ⟨⟨0⟩, [⟨1, .fillBrush⟩, ⟨3, .strokeBrush⟩]⟩,
    ⟨⟨2⟩, [⟨0, .child 1⟩]⟩]
  postOrder := [2, 1, 3, 0]

theorem sharedBrush_describes :
    build sharedBrush = .ok sharedBrushIndex ∧ sharedBrushIndex.Describes sharedBrush := by
  have hbuild : build sharedBrush = .ok sharedBrushIndex := by cbv
  exact ⟨hbuild, build_describes hbuild⟩

end Index
end Diorama
