/-
  Folding a scene.

  A map of ids folds a scene onto another one if it keeps the root and every reference and leads
  each object to the same object under the new ids.  It may lead several objects to one, as long as
  these may be merged; they are twins.

  Merging cannot tell the two scenes apart.

    * `Folded.build`        if the second scene is indexed, so is the first: ranks are taken from
      there.
    * `Folded.ids_eq`       the second index lists images in the order in which they first occur in
      the first index, since both scenes unfold alike.
    * `classId_folded_iff`  objects are in one class exactly if their images are.  A congruence of
      one scene is one of the other, taken along the map or back along it
      (`classId_eq_of_isLeast`), and the classes are least in both.  Going back takes that twins are
      in one class.  That is an induction on ranks (`classId_twin`): the keys of twins differ only
      in twins.
    * `classId_folded`      representatives go to representatives, as they come first.

  So the classes are parallel, and both scenes have the same copy.
-/
import Mathlib
import Diorama.Proofs.ParallelCopies
import Diorama.Proofs.RenumberedIndex
import Diorama.Proofs.VisitOrder

namespace Diorama

variable {K : Type}

/-! ## Folded scenes -/

/-- Whether the object may be merged whatever the settings. -/
def Object.isPlain (o : Object K) : Bool :=
  o.isMergeable && o.attached.properties.isEmpty && !o.attached.hasText

theorem Object.isPlain_iff {o : Object K} : o.isPlain = true ↔
    o.isMergeable = true ∧ o.attached.properties.isEmpty = true ∧ o.attached.hasText = false := by
  simp [isPlain, and_assoc]

/-- Plain objects may be merged under any settings. -/
theorem Object.isEligible_of_isPlain {o : Object K} (h : o.isPlain = true)
    (settings : OptimizerSettings) : o.isEligible settings = true := by
  obtain ⟨-, hempty, htext⟩ := isPlain_iff.mp h
  simp [isEligible, hempty, htext]

/-- What the root of a scene leads to is found in another scene under other ids, where several
objects that may be merged can be one. -/
structure Scene.Folded (f : ObjectId → ObjectId) (s s' : Scene K) : Prop where
  root : s'.root = f s.root
  object {a : ObjectId} : s.Reaches s.root a → s'.get? (f a) = (s.get? a).map (·.mapIds f)
  plain {a b : ObjectId} {o : Object K} : a ∈ s.reachable → b ∈ s.reachable → f a = f b → a ≠ b →
    s.get? a = some o → o.isPlain = true
  size : s'.size ≤ s.size

namespace Scene.Folded

variable {f : ObjectId → ObjectId} {s s' : Scene K} {ix ix' : Index} (h : s.Folded f s')

include h

/-- Folding renames what a reached object refers to. -/
theorem targetsOf_eq {a : ObjectId} (ha : s.Reaches s.root a) :
    s'.targetsOf (f a) = (s.targetsOf a).map f := by
  unfold targetsOf
  rw [h.object ha]
  cases s.get? a with
  | none => rfl
  | some o => exact Object.targets_mapIds f o

/-- References are carried over. -/
theorem refers {a b : ObjectId} (ha : s.Reaches s.root a) (hab : s.Refers a b) :
    s'.Refers (f a) (f b) := by
  rw [Refers, h.targetsOf_eq ha]
  exact List.mem_map_of_mem hab

/-- What the root reaches is carried to what the new root reaches. -/
theorem reaches {a : ObjectId} (ha : s.Reaches s.root a) : s'.Reaches s'.root (f a) := by
  induction ha with
  | refl =>
    rw [h.root]
    exact .refl
  | tail hab hbc ih => exact ih.tail (h.refers hab hbc)

theorem mem_ids (hix' : ix'.Sound s') {a : ObjectId} (ha : s.Reaches s.root a) : f a ∈ ix'.ids :=
  (hix'.ranked.reaches_lower hix'.root_mem (h.reaches ha)).1

/-- The ranks of images are ranks. -/
theorem ranked (hix' : ix'.Sound s') :
    s.Ranked (s.Reaches s.root) (fun a => ix'.rank (f a)) where
  object ha := by
    obtain ⟨o, ho⟩ := hix'.ranked.object (h.mem_ids hix' ha)
    rw [h.object ha] at ho
    obtain ⟨x, hx, -⟩ := Option.map_eq_some_iff.mp ho
    exact ⟨x, hx⟩
  closed ha hab := ha.tail hab
  descends ha hab := hix'.ranked.descends (h.mem_ids hix' ha) (h.refers ha hab)
  bounded ha := Nat.lt_of_lt_of_le (hix'.ranked.bounded (h.mem_ids hix' ha)) h.size

/-- **What is folded onto an indexed scene is indexed.** -/
theorem build (hix' : Index.build s' = .ok ix') : ∃ ix, Index.build s = .ok ix := by
  have hsound := Index.sound_of_build hix'
  refine Index.build_of_ranked (h.ranked hsound) .refl fun a o ha ho => ?_
  obtain ⟨x, hx, hframes⟩ := hsound.object (f a) (h.mem_ids hsound ha)
  rw [h.object ha, ho] at hx
  obtain rfl := Option.some.inj hx
  have hagree := Index.checkFrames_agree a o f
  rw [hframes] at hagree
  generalize Index.checkFrames a o = check at hagree
  cases hagree with
  | ok heq => rw [heq]

/-- Both scenes unfold alike. -/
theorem map_unfolding (n : Nat) :
    ∀ a, s.Reaches s.root a → (s.unfolding n a).map f = s'.unfolding n (f a) := by
  induction n with
  | zero =>
    intro a _
    rfl
  | succ n ih =>
    intro a ha
    have hbelow : ∀ t ∈ s.targetsOf a, (s.unfolding n t).map f = s'.unfolding n (f t) :=
      fun t ht => ih t (ha.tail ht)
    rw [unfolding, unfolding, List.map_cons, h.targetsOf_eq ha, List.map_flatMap, List.flatMap_map,
      List.flatMap_congr hbelow]

/-- **Images are indexed in the order in which they first occur.** -/
theorem ids_eq (hix : Index.build s = .ok ix) (hix' : Index.build s' = .ok ix') :
    ix'.ids = (ix.ids.map f).eraseDups := by
  have hsound := Index.sound_of_build hix'
  have hranked := h.ranked hsound
  have hlow : ∀ a ∈ ix'.ids, ix'.rank a < s.size := fun a ha =>
    Nat.lt_of_lt_of_le (hsound.ranked.bounded ha) h.size
  rw [Index.ids_eq_reachable hix', hsound.ranked.reachable_eq_eraseDups hsound.root_mem hlow,
    Index.ids_eq_reachable hix, hranked.reachable_eq_eraseDups .refl fun a => hranked.bounded,
    eraseDups_map_eraseDups, h.map_unfolding _ _ .refl, h.root]

end Scene.Folded

/-! ## Classes by name -/

namespace Merge

section

variable {s : Scene K} {ix : Index} {E : Setoid Nat} (hix : ix.Sound s)

include hix

/-- The position of an indexed object. -/
theorem position?_of_mem {a : ObjectId} (ha : a ∈ ix.ids) :
    ix.position? a = some (ix.ids.idxOf a) :=
  Index.position?_of_getElem? hix.nodup (Index.Sound.getElem?_idxOf ha)

/-- The name of a class is the object in the least position of the class. -/
theorem getElem?_classId {a : ObjectId} (ha : a ∈ ix.ids) :
    ix.ids[sInf {q | E (ix.ids.idxOf a) q}]? = some (classId ix E a) :=
  classId_of_position? E (position?_of_mem hix ha)

theorem classId_mem {a : ObjectId} (ha : a ∈ ix.ids) : classId ix E a ∈ ix.ids :=
  List.mem_of_getElem? (getElem?_classId hix ha)

/-- The position of the name of a class is the least one. -/
theorem idxOf_classId {a : ObjectId} (ha : a ∈ ix.ids) :
    ix.ids.idxOf (classId ix E a) = sInf {q | E (ix.ids.idxOf a) q} := by
  obtain ⟨hlt, hget⟩ := List.getElem?_eq_some_iff.mp (getElem?_classId (E := E) hix ha)
  rw [← hget]
  exact hix.nodup.idxOf_getElem _ hlt

/-- Objects have one name for their classes exactly if they are related. -/
theorem classId_eq_iff {a b : ObjectId} (ha : a ∈ ix.ids) (hb : b ∈ ix.ids) :
    classId ix E a = classId ix E b ↔ E (ix.ids.idxOf a) (ix.ids.idxOf b) := by
  constructor
  · intro heq
    have hleast := congrArg ix.ids.idxOf heq
    rw [idxOf_classId hix ha, idxOf_classId hix hb] at hleast
    exact E.trans (hleast ▸ related_least E _) (E.symm (related_least E _))
  · intro hab
    have hsame : {q | E (ix.ids.idxOf a) q} = {q | E (ix.ids.idxOf b) q} := by
      ext q
      exact ⟨fun hq => E.trans (E.symm hab) hq, fun hq => E.trans hab hq⟩
    have hclass := getElem?_classId (E := E) hix ha
    rw [hsame, getElem?_classId hix hb] at hclass
    exact (Option.some.inj hclass).symm

/-- A class is named by its first object. -/
theorem idxOf_classId_le {a b : ObjectId} (hb : b ∈ ix.ids)
    (heq : classId ix E a = classId ix E b) : ix.ids.idxOf (classId ix E a) ≤ ix.ids.idxOf b := by
  rw [heq, idxOf_classId hix hb]
  exact least_related_le E _

end

section

variable [Scalar K] {s t : Scene K} {ix jx : Index} {settings : OptimizerSettings}
  {E F : Setoid Nat}

/-- The key of an object that may be merged. -/
theorem keyUnder_of_mem {a : ObjectId} {o : Object K} (ha : a ∈ ix.ids)
    (ho : s.get? a = some o) (heligible : o.isEligible settings = true) :
    keyUnder s ix settings E (ix.ids.idxOf a) = o.mergeKey? (classId ix E) := by
  rw [keyUnder, objectAt?, Index.Sound.getElem?_idxOf ha, Option.bind_some, ho, Option.bind_some,
    if_pos heligible]

/-- **Classes of one scene go to classes of another one**, along a map under which an object and its
image have the same key, as the other scene names classes.  For then "in one class over there" is a
congruence here, and the classes here are least. -/
theorem classId_eq_of_isLeast (hix : ix.Sound s) (hjx : jx.Sound t)
    (hE : IsLeast {E | IsCongruence s ix settings E} E) (hF : IsCongruence t jx settings F)
    {g : ObjectId → ObjectId}
    (hg : ∀ a o, a ∈ ix.ids → s.get? a = some o → ∃ o', g a ∈ jx.ids ∧ t.get? (g a) = some o' ∧
      o'.isEligible settings = o.isEligible settings ∧
      o'.mergeKey? (classId jx F) = o.mergeKey? (classId jx F ∘ g))
    {a b : ObjectId} (ha : a ∈ ix.ids) (hb : b ∈ ix.ids) (hab : classId ix E a = classId ix E b) :
    classId jx F (g a) = classId jx F (g b) := by
  let G : Setoid Nat := Setoid.ker fun p => ix.ids[p]?.map (classId jx F ∘ g)
  have hclass : ∀ u ∈ ix.ids, classId jx F (g (classId ix G u)) = classId jx F (g u) := by
    intro u hu
    have hrelated :
        ix.ids[ix.ids.idxOf u]?.map _ = ix.ids[sInf {q | G (ix.ids.idxOf u) q}]?.map _ :=
      related_least G (ix.ids.idxOf u)
    rw [Index.Sound.getElem?_idxOf hu, getElem?_classId hix hu] at hrelated
    exact (Option.some.inj hrelated).symm
  -- keys under the relation become keys over there
  have hkey : ∀ p k, keyUnder s ix settings G p = some k → ∃ u, ix.ids[p]? = some u ∧
      g u ∈ jx.ids ∧ keyUnder t jx settings F (jx.ids.idxOf (g u)) =
        some (k.mapIds (classId jx F ∘ g)) := by
    intro p k hk
    obtain ⟨o, ho, heligible, hkey⟩ := exists_object_of_keyUnder hk
    obtain ⟨u, hu, hget⟩ := Option.bind_eq_some_iff.mp ho
    obtain ⟨o', hmem, hget', heligible', hkey'⟩ := hg u o (List.mem_of_getElem? hu) hget
    refine ⟨u, hu, hmem, ?_⟩
    have hnames : o.mergeKey? (classId jx F ∘ g) =
        o.mergeKey? ((classId jx F ∘ g) ∘ classId ix G) :=
      Object.mergeKey?_congr fun v hv => (hclass v (mem_ids_of_mem_targets hix ho hv)).symm
    rw [keyUnder_of_mem hmem hget' (heligible'.trans heligible), hkey', hnames,
      Object.mergeKey?_comp, hkey]
    rfl
  have hG : IsCongruence s ix settings G := by
    intro p q k hp hq
    obtain ⟨u, hu, hmemu, hku⟩ := hkey p k hp
    obtain ⟨v, hv, hmemv, hkv⟩ := hkey q k hq
    show ix.ids[p]?.map _ = ix.ids[q]?.map _
    rw [hu, hv]
    exact congrArg some ((classId_eq_iff hjx hmemu hmemv).mpr (hF _ _ _ hku hkv))
  have hrelated : ix.ids[ix.ids.idxOf a]?.map _ = ix.ids[ix.ids.idxOf b]?.map _ :=
    hE.2 hG ((classId_eq_iff hix ha hb).mp hab)
  rw [Index.Sound.getElem?_idxOf ha, Index.Sound.getElem?_idxOf hb] at hrelated
  exact Option.some.inj hrelated

end

/-! ## Classes of folded scenes -/

variable [Scalar K] {f : ObjectId → ObjectId} {s s' : Scene K} {ix ix' : Index}
  {settings : OptimizerSettings} {E E' : Setoid Nat}

section

variable (h : s.Folded f s') (hix : Index.build s = .ok ix) (hix' : Index.build s' = .ok ix')

include h hix hix'

omit [Scalar K] hix' in
/-- An indexed object is there after folding, renamed. -/
theorem get?_folded {a : ObjectId} {o : Object K} (ha : a ∈ ix.ids) (ho : s.get? a = some o) :
    s'.get? (f a) = some (o.mapIds f) := by
  rw [h.object ((Index.sound_of_build hix).reached a ha), ho]
  rfl

omit [Scalar K] in
/-- Every object of the folded scene is an image, and there is a first object that it is the image
of. -/
theorem exists_first {y : ObjectId} (hy : y ∈ ix'.ids) :
    ∃ a ∈ ix.ids, f a = y ∧ ix.ids.idxOf a = (ix.ids.map f).idxOf y := by
  rw [h.ids_eq hix hix', List.mem_eraseDups] at hy
  have hplace := List.idxOf_lt_length_of_mem hy
  have hlt : (ix.ids.map f).idxOf y < ix.ids.length := by simpa using hplace
  refine ⟨ix.ids.get ⟨_, hlt⟩, List.get_mem _ _, ?_,
    (Index.sound_of_build hix).nodup.idxOf_getElem _ hlt⟩
  have hget := List.getElem_idxOf hplace
  rwa [List.getElem_map] at hget

omit [Scalar K] in
theorem mem_ids_folded {a : ObjectId} (ha : a ∈ ix.ids) : f a ∈ ix'.ids :=
  h.mem_ids (Index.sound_of_build hix') ((Index.sound_of_build hix).reached a ha)

omit [Scalar K] in
/-- There is a way back from images to objects. -/
theorem exists_back :
    ∃ back : ObjectId → ObjectId, ∀ y ∈ ix'.ids, back y ∈ ix.ids ∧ f (back y) = y := by
  have hchoice : ∀ y, ∃ a, y ∈ ix'.ids → a ∈ ix.ids ∧ f a = y := by
    intro y
    by_cases hy : y ∈ ix'.ids
    · obtain ⟨a, ha, heq, -⟩ := exists_first h hix hix' hy
      exact ⟨a, fun _ => ⟨ha, heq⟩⟩
    · exact ⟨y, fun hmem => absurd hmem hy⟩
  choose back hback using hchoice
  exact ⟨back, hback⟩

omit h hix hix' in
/-- If references are named by their images, so is the key. -/
theorem mergeKey?_eq_of_names {o : Object K} {name back : ObjectId → ObjectId}
    (hnames : ∀ t ∈ o.targets, name t = name (back (f t))) :
    o.mergeKey? name = (o.mapIds f).mergeKey? (name ∘ back) := by
  rw [Object.mergeKey?_mapIds]
  exact Object.mergeKey?_congr hnames

/-- **Twins are in one class.** -/
theorem classId_twin (hE : IsCongruence s ix settings E) {a b : ObjectId} (ha : a ∈ ix.ids)
    (hb : b ∈ ix.ids) (hab : f a = f b) : classId ix E a = classId ix E b := by
  have hsound := Index.sound_of_build hix
  have hsound' := Index.sound_of_build hix'
  obtain ⟨back, hback⟩ := exists_back h hix hix'
  induction hrank : ix'.rank (f a) using Nat.strong_induction_on generalizing a b with
  | _ n ih =>
    by_cases hne : a = b
    · rw [hne]
    obtain ⟨o, ho, -⟩ := hsound.object a ha
    obtain ⟨o', ho', -⟩ := hsound.object b hb
    have hareach := hsound.mem_ids_iff.mp ha
    have hbreach := hsound.mem_ids_iff.mp hb
    have hplain := h.plain hareach hbreach hab hne ho
    have hplain' := h.plain hbreach hareach hab.symm (Ne.symm hne) ho'
    have hsame : o.mapIds f = o'.mapIds f := by
      have himage := get?_folded h hix ha ho
      rw [hab, get?_folded h hix hb ho'] at himage
      exact (Option.some.inj himage).symm
    -- references lead lower, where twins are in one class, so the key only sees images
    have hkey : ∀ {u : ObjectId} {x : Object K}, u ∈ ix.ids → s.get? u = some x → f u = f a →
        x.isPlain = true → keyUnder s ix settings E (ix.ids.idxOf u) =
          (x.mapIds f).mergeKey? (classId ix E ∘ back) := by
      intro u x hu hx hua hxplain
      rw [keyUnder_of_mem hu hx (Object.isEligible_of_isPlain hxplain settings)]
      refine mergeKey?_eq_of_names fun v hv => ?_
      have hrefers := Scene.refers_of_get? hx hv
      have hvids := hsound.ranked.closed hu hrefers
      have hdrop := (h.ranked hsound').descends (hsound.reached u hu) hrefers
      obtain ⟨hmem, heq⟩ := hback (f v) (mem_ids_folded h hix hix' hvids)
      rw [hua, hrank] at hdrop
      exact ih _ hdrop hvids hmem heq.symm rfl
    have hmergeable : (o.mapIds f).isMergeable = true :=
      (o.isMergeable_mapIds f).trans (Object.isPlain_iff.mp hplain).1
    obtain ⟨k, hk⟩ : ∃ k, (o.mapIds f).mergeKey? (classId ix E ∘ back) = some k :=
      ⟨_, if_pos hmergeable⟩
    have hkeya := (hkey ha ho rfl hplain).trans hk
    have hkeyb := (hkey hb ho' hab.symm hplain').trans (hsame ▸ hk)
    exact (classId_eq_iff hsound ha hb).mpr (hE _ _ k hkeya hkeyb)

variable (hE : IsLeast {E | IsCongruence s ix settings E} E)
  (hE' : IsLeast {E | IsCongruence s' ix' settings E} E')

include hE hE'

/-- **Objects are in one class exactly if their images are.** -/
theorem classId_folded_iff {a b : ObjectId} (ha : a ∈ ix.ids) (hb : b ∈ ix.ids) :
    classId ix E a = classId ix E b ↔ classId ix' E' (f a) = classId ix' E' (f b) := by
  have hsound := Index.sound_of_build hix
  have hsound' := Index.sound_of_build hix'
  constructor
  · refine classId_eq_of_isLeast hsound hsound' hE hE'.1 (fun u o hu ho => ?_) ha hb
    exact ⟨o.mapIds f, mem_ids_folded h hix hix' hu, get?_folded h hix hu ho,
      o.isEligible_mapIds f settings, o.mergeKey?_mapIds f _⟩
  -- backwards, folding has no inverse, but one on the classes
  · intro hab
    obtain ⟨back, hback⟩ := exists_back h hix hix'
    have htwin : ∀ u ∈ ix.ids, classId ix E u = classId ix E (back (f u)) := by
      intro u hu
      obtain ⟨hmem, heq⟩ := hback (f u) (mem_ids_folded h hix hix' hu)
      exact classId_twin h hix hix' hE.1 hu hmem heq.symm
    rw [htwin a ha, htwin b hb]
    refine classId_eq_of_isLeast hsound' hsound hE' hE.1 (fun y o hy ho => ?_)
      (mem_ids_folded h hix hix' ha) (mem_ids_folded h hix hix' hb) hab
    obtain ⟨hmem, heq⟩ := hback y hy
    obtain ⟨x, hx, -⟩ := hsound.object _ hmem
    have hfold := get?_folded h hix hmem hx
    rw [heq, ho] at hfold
    obtain rfl := Option.some.inj hfold
    refine ⟨x, hmem, hx, (x.isEligible_mapIds f settings).symm,
      mergeKey?_eq_of_names fun v hv => ?_⟩
    exact htwin v (hsound.ranked.closed hmem (Scene.refers_of_get? hx hv))

/-- **Representatives go to representatives**: what comes first in its class comes first among the
images. -/
theorem classId_folded {a : ObjectId} (ha : a ∈ ix.ids) :
    f (classId ix E a) = classId ix' E' (f a) := by
  have hsound := Index.sound_of_build hix
  have hsound' := Index.sound_of_build hix'
  have hfirst := classId_mem (E := E) hsound ha
  have hsame : classId ix' E' (f (classId ix E a)) = classId ix' E' (f a) :=
    (classId_folded_iff h hix hix' hE hE' hfirst ha).mp
      (classId_classId hsound.nodup (le_refl E) a)
  -- the first object whose image is the other representative
  obtain ⟨b, hb, hba, hplace⟩ :=
    exists_first h hix hix' (classId_mem (E := E') hsound' (mem_ids_folded h hix hix' ha))
  have hclass : classId ix E a = classId ix E b := by
    refine (classId_folded_iff h hix hix' hE hE' ha hb).mpr ?_
    rw [hba, classId_classId hsound'.nodup (le_refl E')]
  have hbefore := idxOf_classId_le hsound hb hclass
  have hafter : (ix.ids.map f).idxOf (f b) ≤ (ix.ids.map f).idxOf (f (classId ix E a)) := by
    refine idxOf_le_of_idxOf_eraseDups_le (List.mem_map_of_mem hb) (List.mem_map_of_mem hfirst) ?_
    rw [← h.ids_eq hix hix', hba]
    exact idxOf_classId_le hsound' (mem_ids_folded h hix hix' hfirst) hsame.symm
  have himageFirst := idxOf_map_le f hfirst
  have hplaces : ix.ids.idxOf (classId ix E a) = ix.ids.idxOf b := by
    rw [hplace, ← hba] at hbefore ⊢
    omega
  rw [(List.idxOf_inj hfirst).mp hplaces, hba]

end

/-! ## The same copy -/

/-- The position of the image of the object at a position. -/
def foldedPosition (f : ObjectId → ObjectId) (ix ix' : Index) (p : Nat) : Nat :=
  ix'.ids.idxOf (f (ix.ids.getD p ⟨0⟩))

variable (settings) in
/-- The classes of an index are the least congruence. -/
theorem isLeast_ofIndex (hix : ix.Sound s) :
    IsLeast {E | IsCongruence s ix settings E} (Classes.ofIndex s ix settings).relation :=
  Classes.isLeast_relation hix.nodup (Classes.complete_schedule hix)

variable (settings) in
/-- A representative is the position of the name of its class. -/
theorem representative_eq_idxOf (hix : ix.Sound s) {a : ObjectId} (ha : a ∈ ix.ids) :
    (Classes.ofIndex s ix settings).representative (ix.ids.idxOf a) =
      ix.ids.idxOf (classId ix (Classes.ofIndex s ix settings).relation a) := by
  rw [idxOf_classId hix ha]
  exact (Classes.isLeast_representative _ _).csInf_eq.symm

/-- A representative is the position of an object that names its own class. -/
theorem exists_of_represents (hix : ix.Sound s) {r : Nat}
    (h : Represents ix (Classes.ofIndex s ix settings) r) : ∃ a ∈ ix.ids, r = ix.ids.idxOf a ∧
      classId ix (Classes.ofIndex s ix settings).relation a = a := by
  obtain ⟨a, p, hpos, rfl⟩ := h
  have ha := List.mem_of_getElem? (Index.position?_eq_some hpos)
  obtain rfl := Option.some.inj (hpos.symm.trans (position?_of_mem hix ha))
  exact ⟨_, classId_mem hix ha, representative_eq_idxOf settings hix ha,
    classId_classId hix.nodup (le_refl _) a⟩

omit [Scalar K] in
/-- Folding carries the position of an object to the position of its image. -/
theorem foldedPosition_idxOf {a : ObjectId} (ha : a ∈ ix.ids) :
    foldedPosition f ix ix' (ix.ids.idxOf a) = ix'.ids.idxOf (f a) := by
  rw [foldedPosition, List.getD_eq_getElem?_getD, Index.Sound.getElem?_idxOf ha]
  rfl

/-- A class has several members exactly if its representative is not alone in it. -/
theorem one_lt_sizeOf_idxOf_iff (hix : ix.Sound s) {a : ObjectId} (ha : a ∈ ix.ids)
    (hself : classId ix (Classes.ofIndex s ix settings).relation a = a) :
    1 < (Classes.ofIndex s ix settings).sizeOf (ix.ids.idxOf a) ↔
      ∃ b ∈ ix.ids, b ≠ a ∧ classId ix (Classes.ofIndex s ix settings).relation b = a := by
  have hrep := representative_eq_idxOf settings hix ha
  rw [hself] at hrep
  have hlt : ix.ids.idxOf a < ix.size := by
    rw [Index.size_eq_length_ids]
    exact List.idxOf_lt_length_of_mem ha
  rw [← hrep, one_lt_sizeOf_iff hlt, hrep]
  constructor
  · rintro ⟨q, hq, hne, hsame⟩
    rw [Index.size_eq_length_ids] at hq
    have hb : ix.ids.get ⟨q, hq⟩ ∈ ix.ids := List.get_mem _ _
    have hplace : ix.ids.idxOf (ix.ids.get ⟨q, hq⟩) = q := hix.nodup.idxOf_getElem q hq
    refine ⟨_, hb, fun heq => hne (heq ▸ hplace.symm), ?_⟩
    rw [← hplace, representative_eq_idxOf settings hix hb] at hsame
    exact (List.idxOf_inj (classId_mem hix hb)).mp hsame
  · rintro ⟨b, hb, hne, hsame⟩
    refine ⟨ix.ids.idxOf b, ?_, fun heq => hne ((List.idxOf_inj hb).mp heq), ?_⟩
    · rw [Index.size_eq_length_ids]
      exact List.idxOf_lt_length_of_mem hb
    · rw [representative_eq_idxOf settings hix hb, hsame]

/-- **The classes of a scene and of a folded scene are parallel.** -/
theorem parallel_folded (h : s.Folded f s') (hix : Index.build s = .ok ix)
    (hix' : Index.build s' = .ok ix') :
    Parallel f (foldedPosition f ix ix') settings s ix (Classes.ofIndex s ix settings) s' ix'
      (Classes.ofIndex s' ix' settings) := by
  have hsound := Index.sound_of_build hix
  have hsound' := Index.sound_of_build hix'
  have hE := isLeast_ofIndex settings hsound
  have hE' := isLeast_ofIndex settings hsound'
  have himage : ∀ {a}, a ∈ ix.ids → f a ∈ ix'.ids := mem_ids_folded h hix hix'
  have hname : ∀ {a}, a ∈ ix.ids → f (classId ix (Classes.ofIndex s ix settings).relation a) =
      classId ix' (Classes.ofIndex s' ix' settings).relation (f a) :=
    fun ha => classId_folded h hix hix' hE hE' ha
  refine
    { sound := hsound
      root := h.root
      class_eq := fun {a p} hpos => ?_
      object := fun {r} hr => ?_
      inj := fun {r q} hr hq heq => ?_
      text := fun {r o} _ hr ho htext => ?_ }
  · have ha := List.mem_of_getElem? (Index.position?_eq_some hpos)
    obtain rfl := Option.some.inj (hpos.symm.trans (position?_of_mem hsound ha))
    refine ⟨_, position?_of_mem hsound' (himage ha), ?_⟩
    rw [representative_eq_idxOf settings hsound' (himage ha),
      representative_eq_idxOf settings hsound ha,
      foldedPosition_idxOf (classId_mem hsound ha), hname ha]
  · obtain ⟨a, ha, rfl, -⟩ := exists_of_represents hsound hr
    rw [foldedPosition_idxOf ha, objectAt?, objectAt?, Index.Sound.getElem?_idxOf ha,
      Index.Sound.getElem?_idxOf (himage ha)]
    exact h.object (hsound.reached a ha)
  · obtain ⟨a, ha, rfl, haself⟩ := exists_of_represents hsound hr
    obtain ⟨b, hb, rfl, hbself⟩ := exists_of_represents hsound hq
    rw [foldedPosition_idxOf ha, foldedPosition_idxOf hb] at heq
    have htwin := classId_twin h hix hix' hE.1 ha hb ((List.idxOf_inj (himage ha)).mp heq)
    rw [haself, hbself] at htwin
    rw [htwin]
  · obtain ⟨a, ha, rfl, hself⟩ := exists_of_represents hsound hr
    have hself' := hname ha
    rw [hself] at hself'
    rw [foldedPosition_idxOf ha, one_lt_sizeOf_idxOf_iff hsound ha hself,
      one_lt_sizeOf_idxOf_iff hsound' (himage ha) hself'.symm]
    have hiff : ∀ {b}, b ∈ ix.ids → (classId ix (Classes.ofIndex s ix settings).relation b = a ↔
        classId ix' (Classes.ofIndex s' ix' settings).relation (f b) = f a) := by
      intro b hb
      have hclasses := classId_folded_iff h hix hix' hE hE' hb ha
      rwa [hself, ← hself'] at hclasses
    constructor
    · rintro ⟨y, hy, hne, hsame⟩
      obtain ⟨b, hb, rfl, -⟩ := exists_first h hix hix' hy
      exact ⟨b, hb, fun heq => hne (congrArg f heq), (hiff hb).mpr hsame⟩
    · rintro ⟨b, hb, hne, hsame⟩
      refine ⟨f b, himage hb, fun heq => ?_, (hiff hb).mp hsame⟩
      -- a twin has no text
      rw [objectAt?, Index.Sound.getElem?_idxOf ha, Option.bind_some] at ho
      have hplain :=
        h.plain (hsound.mem_ids_iff.mp ha) (hsound.mem_ids_iff.mp hb) heq.symm hne.symm ho
      rw [(Object.isPlain_iff.mp hplain).2.2] at htext
      cases htext

end Merge

/-- **A scene and a folded scene are optimized alike**, if the folded one is indexed. -/
theorem Scene.Folded.optimize_agree [Scalar K] {f : ObjectId → ObjectId} {s s' : Scene K}
    {ix' : Index} (h : s.Folded f s') (hix' : Index.build s' = .ok ix')
    (settings : OptimizerSettings) :
    Agree (fun out out' => out'.scene = out.scene) (s.optimize settings)
      (s'.optimize settings) := by
  obtain ⟨ix, hix⟩ := h.build hix'
  exact optimize_agree_of_copy_agree hix hix' (Merge.parallel_folded h hix hix').copy_agree

end Diorama
