/-
  The copy of a scene is its quotient.

  `IsQuotient` says what that means: a map of ids that is onto the arena of the copy, identifies
  exactly the objects of one class, takes the root to the root, and takes every object to the copy
  of the object that represents its class.  Frozen are the animations that animators of the copy
  run, and nothing else.

  The map is `copyId`.  That it is onto is not plain to see, since the walk over classes follows
  only the references of representatives.  But members of a class refer to the same classes, slot by
  slot, so the classes that the walk enters are closed under the references of all their members
  (`covered_of_refers`), and every reachable object is in one of them (`Copied.covered`).
-/
import Diorama.Proofs.CopiedObjects
import Diorama.Proofs.CopiedPicture
import Diorama.Proofs.Distinct
import Diorama.Proofs.Indexability

namespace Diorama.Merge

variable {K : Type} [Scalar K] {s out : Scene K} {ix : Index} {c : Classes}
  {settings : OptimizerSettings} {order : List Nat}

/-! ## What the walk enters -/

omit [Scalar K] in
/-- What holds of every representative that is entered holds of all that are finished. -/
theorem copyWalk_induction {P : Nat → Prop}
    (hstep : ∀ id p o, ix.position? id = some p → objectAt? s ix (c.representative p) = some o →
      (∀ name, o.content ≠ .external name) → P (c.representative p))
    {tasks : List CopyTask} {entered finished : List Nat}
    (hwalk : copyWalk s ix c tasks entered finished = .ok order)
    (htasks : ∀ r ∈ finishing tasks, P r) (hfinished : ∀ r ∈ finished, P r) :
    ∀ r ∈ order, P r := by
  -- what was finished has the property, and so has what is going to be
  fun_induction copyWalk s ix c tasks entered finished with
  | case1 entered finished =>
    obtain rfl := Except.ok.inj hwalk
    exact hfinished
  | case2 entered finished r rest ih =>
    refine ih hwalk (fun x hx => htasks x (List.mem_cons_of_mem _ hx)) ?_
    intro x hx
    rcases List.mem_append.mp hx with hx | hx
    · exact hfinished x hx
    · rw [List.mem_singleton.mp hx]
      exact htasks r List.mem_cons_self
  | case3 => cases hwalk
  | case4 entered finished id rest p hpos hseen ih => exact ih hwalk htasks hfinished
  | case5 => cases hwalk
  | case6 => cases hwalk
  | case7 => cases hwalk
  | case8 entered finished id rest p hpos hnew rid hrid o hget hknown ih =>
    refine ih hwalk ?_ hfinished
    intro x hx
    rw [finishing_append, finishing_visits, List.nil_append] at hx
    rcases List.mem_cons.mp hx with rfl | hx
    · exact hstep id p o hpos (by simp [objectAt?, hrid, hget]) fun name => hknown name
    · exact htasks x hx

omit [Scalar K] in
/-- The order lists representatives of known objects. -/
theorem known_of_copyOrder (h : copyOrder s ix c = .ok order) : ∀ r ∈ order,
    (∃ id p, ix.position? id = some p ∧ c.representative p = r) ∧
      ∃ o, objectAt? s ix r = some o ∧ ∀ name, o.content ≠ .external name :=
  copyWalk_induction (fun id p o hpos ho hknown => ⟨⟨id, p, hpos, rfl⟩, o, ho, hknown⟩) h
    (by simp [finishing]) (by simp)

/-! ## Every class has its copy -/

namespace Copied

variable (h : Copied s ix settings c order out)

include h

/-- Every indexed object is in a class that the order lists. -/
theorem covered {id : ObjectId} (hid : id ∈ ix.ids) : Covered ix c order id := by
  have hreach := h.sound.reached id hid
  clear hid
  induction hreach with
  | refl => exact h.ordered.root
  | tail _ hbc ih => exact h.covered_of_refers ih hbc

theorem arena_le_words : out.size ≤ UInt32.size := by
  have hlen := h.ordered.length_le
  have hwords := size_le_words h.sound.nodup
  rw [h.size_eq]
  rw [Index.size_eq_length_ids] at hlen
  omega

/-- The copy of an object stands at the place of its class in the order. -/
theorem index_copyId {id : ObjectId} {p : Nat} (hpos : ix.position? id = some p)
    (hmem : c.representative p ∈ order) :
    (copyId ix c order id).index = order.idxOf (c.representative p) := by
  have hlt := List.idxOf_lt_length_of_mem hmem
  have hsize := h.arena_le_words
  rw [h.size_eq] at hsize
  rw [copyId_of_position? hpos, ObjectId.index_ofIndex (by omega)]

theorem index_copyId_lt {id : ObjectId} (hid : id ∈ ix.ids) :
    (copyId ix c order id).index < out.size := by
  obtain ⟨p, hpos, hmem⟩ := h.covered hid
  rw [h.index_copyId hpos hmem, h.size_eq]
  exact List.idxOf_lt_length_of_mem hmem

/-- Objects have one copy exactly if they have one representative. -/
theorem copyId_eq_iff {a b : ObjectId} {p q : Nat} (hp : ix.position? a = some p)
    (hq : ix.position? b = some q) :
    copyId ix c order a = copyId ix c order b ↔ c.representative p = c.representative q := by
  constructor
  · intro heq
    obtain ⟨p', hp', hmem⟩ := h.covered (List.mem_of_getElem? (Index.position?_eq_some hp))
    obtain ⟨q', hq', hmem'⟩ := h.covered (List.mem_of_getElem? (Index.position?_eq_some hq))
    obtain rfl := Option.some.inj (hp.symm.trans hp')
    obtain rfl := Option.some.inj (hq.symm.trans hq')
    have hindex := congrArg ObjectId.index heq
    rw [h.index_copyId hp hmem, h.index_copyId hq hmem'] at hindex
    exact (List.idxOf_inj hmem).mp hindex
  · intro heq
    rw [copyId_of_position? hp, copyId_of_position? hq, heq]

/-- The copy of the representative stands for every object of the class. -/
theorem exists_copy {id : ObjectId} (hid : id ∈ ix.ids) :
    ∃ p o, ix.position? id = some p ∧ c.representative p ∈ order ∧
      objectAt? s ix (c.representative p) = some o ∧
      out.get? (copyId ix c order id) =
        some (copyObject c settings (copyId ix c order) (c.representative p) o) := by
  obtain ⟨p, hpos, hmem⟩ := h.covered hid
  obtain ⟨rid, o, hrid, hget⟩ := h.ordered.object _ hmem
  have ho : objectAt? s ix (c.representative p) = some o := by simp [objectAt?, hrid, hget]
  exact ⟨p, o, hpos, hmem, ho, h.get?_copyId hpos hmem ho⟩

/-- A copy refers to the copies of what its object refers to. -/
theorem refers_copyId {a b : ObjectId} (ha : a ∈ ix.ids) (hab : s.Refers a b) :
    out.Refers (copyId ix c order a) (copyId ix c order b) := by
  obtain ⟨p, o, hpos, hmem, ho, hcopy⟩ := h.exists_copy ha
  obtain ⟨x, hx, hb⟩ := Scene.exists_get?_of_refers hab
  -- the representative refers to an object of the same class
  have htargets := related_targets h.sound h.least (h.represented p)
    (objectAt?_of_position? hpos hx) ho
  have hcopies : x.targets.map (copyId ix c order) = o.targets.map (copyId ix c order) := by
    have hmapped := congrArg (List.map (copyId ix c order)) htargets
    rwa [List.map_map, List.map_map, copyId_comp_classId h.sound.nodup] at hmapped
  refine Scene.refers_of_get? hcopy ?_
  rw [targets_copyObject, ← hcopies]
  exact List.mem_map_of_mem hb

/-- Every copy is reachable in the copy. -/
theorem copyId_mem_reachable {id : ObjectId} (hid : id ∈ ix.ids) :
    copyId ix c order id ∈ out.reachable := by
  have hreach := h.sound.reached id hid
  clear hid
  induction hreach with
  | refl =>
    obtain ⟨p, o, -, -, -, hcopy⟩ := h.exists_copy h.sound.root_mem
    rw [← h.root] at hcopy ⊢
    exact Scene.root_mem_reachable hcopy
  | @tail a b hab hbc ih =>
    have ha := (h.sound.ranked.reaches_lower h.sound.root_mem hab).1
    have hb := h.sound.ranked.closed ha hbc
    obtain ⟨p, o, -, -, -, hcopy⟩ := h.exists_copy hb
    exact Scene.mem_reachable_of_refers ih (h.refers_copyId ha hbc) hcopy

variable (horder : copyOrder s ix c = .ok order)

include horder

/-- The order lists representatives. -/
theorem representative_of_mem {r : Nat} (hr : r ∈ order) : c.representative r = r := by
  obtain ⟨⟨id, p, hpos, hrep⟩, -⟩ := known_of_copyOrder horder r hr
  have hrelated : c.representative p = c.representative (c.representative p) := h.represented p
  rw [hrep] at hrelated
  exact hrelated.symm

/-- Every object of the copy is the copy of a representative. -/
theorem exists_source {y : ObjectId} (hy : y.index < out.size) :
    ∃ r id o, order[y.index]? = some r ∧ ix.ids[r]? = some id ∧ s.get? id = some o ∧
      (∀ name, o.content ≠ .external name) ∧ copyId ix c order id = y ∧
      out.get? y = some (copyObject c settings (copyId ix c order) r o) := by
  rw [h.size_eq] at hy
  have hr := List.getElem_mem hy
  obtain ⟨-, o, ho, hknown⟩ := known_of_copyOrder horder _ hr
  obtain ⟨id, hid, hget⟩ := Option.bind_eq_some_iff.mp ho
  have hpos := Index.position?_of_getElem? h.sound.nodup hid
  have hrep := h.representative_of_mem horder hr
  have hcopyId : copyId ix c order id = y := by
    rw [copyId_of_position? hpos, hrep, h.ordered.nodup.idxOf_getElem, ObjectId.ofIndex_index]
  refine ⟨_, id, o, List.getElem?_eq_getElem hy, hid, hget, hknown, hcopyId, ?_⟩
  have hcopy := h.get?_copyId hpos (hrep.symm ▸ hr) (hrep.symm ▸ ho)
  rwa [hcopyId, hrep] at hcopy

end Copied

/-! ## Frozen objects -/

omit [Scalar K] in
theorem isFrozen_freeze (s : Scene K) (x y : ObjectId) :
    (s.freeze x).isFrozen y = true ↔ s.isFrozen y = true ∨ x = y := by
  unfold Scene.freeze
  split
  · rename_i hx
    constructor
    · exact Or.inl
    · rintro (hy | rfl)
      · exact hy
      · exact hx
  · simp only [Scene.isFrozen, List.contains_iff_mem, List.mem_cons]
    rw [or_comm, eq_comm]

omit [Scalar K] in
theorem isFrozen_freezeAnimations (s : Scene K) (o : Object K) (y : ObjectId) :
    (freezeAnimations s o).isFrozen y = true ↔
      s.isFrozen y = true ∨ ∃ a ∈ o.attached.animators, a.animation = y := by
  unfold freezeAnimations
  induction o.attached.animators generalizing s with
  | nil => simp
  | cons a rest ih =>
    rw [List.foldl_cons, ih, isFrozen_freeze]
    simp only [List.mem_cons, exists_eq_or_imp, or_assoc]

omit [Scalar K] in
theorem isFrozen_foldl_freezeAnimations (objects : List (Object K)) (s : Scene K) (y : ObjectId) :
    (objects.foldl freezeAnimations s).isFrozen y = true ↔
      s.isFrozen y = true ∨ ∃ o ∈ objects, ∃ a ∈ o.attached.animators, a.animation = y := by
  induction objects generalizing s with
  | nil => simp
  | cons o rest ih =>
    rw [List.foldl_cons, ih, isFrozen_freezeAnimations]
    simp only [List.mem_cons, exists_eq_or_imp, or_assoc]

/-- Frozen in a copy are the animations that its animators run. -/
theorem isFrozen_assembled (y : ObjectId) :
    (assembled s ix c settings order).isFrozen y = true ↔
      ∃ o ∈ (assembled s ix c settings order).objects.toList,
        ∃ a ∈ o.attached.animators, a.animation = y := by
  rw [assembled_objects]
  unfold assembled
  rw [isFrozen_foldl_freezeAnimations]
  simp [Scene.isFrozen]

omit [Scalar K] in
/-- An object in the arena of a scene that has no more objects than there are ids. -/
theorem mem_objects_iff (hsize : s.size ≤ UInt32.size) {o : Object K} :
    o ∈ s.objects.toList ↔ ∃ id, s.get? id = some o := by
  constructor
  · intro ho
    obtain ⟨i, hi, rfl⟩ := List.getElem_of_mem ho
    have hlt : i < s.size := by simpa [Scene.size] using hi
    refine ⟨.ofIndex i, ?_⟩
    rw [Scene.get?, ObjectId.index_ofIndex (by omega)]
    exact Array.getElem?_eq_getElem hlt
  · rintro ⟨id, hid⟩
    obtain ⟨hlt, rfl⟩ := Array.getElem?_eq_some_iff.mp hid
    exact Array.getElem_mem_toList hlt

/-! ## The number of classes and their members -/

theorem mem_canonicals_iff {r : Nat} : r ∈ (Classes.ofIndex s ix settings).canonicals ↔
    r < ix.size ∧ (Classes.ofIndex s ix settings).representative r = r := by
  simp [Classes.canonicals, Classes.length_representatives]

/-- A class has several members exactly if some other position is represented likewise. -/
theorem one_lt_sizeOf_iff {p : Nat} (hp : p < ix.size) :
    1 < (Classes.ofIndex s ix settings).sizeOf
        ((Classes.ofIndex s ix settings).representative p) ↔
      ∃ q, q < ix.size ∧ q ≠ p ∧ (Classes.ofIndex s ix settings).representative q =
        (Classes.ofIndex s ix settings).representative p := by
  have hreps : (Classes.ofIndex s ix settings).representatives =
      (List.range ix.size).map (Classes.ofIndex s ix settings).representative := by
    rw [Classes.ofIndex, Classes.representatives_inTurns]
    exact List.map_congr_left fun q _ => (Classes.representative_inTurns _ q).symm
  have hlength : (Classes.ofIndex s ix settings).representatives.length = ix.size :=
    Classes.length_representatives
  have hget : ∀ q : Fin (Classes.ofIndex s ix settings).representatives.length,
      (Classes.ofIndex s ix settings).representatives.get q =
        (Classes.ofIndex s ix settings).representative q := by
    intro q
    simp [hreps]
  -- two entries for one class are two positions
  rw [Classes.sizeOf, ← Nat.succ_le_iff, ← List.duplicate_iff_two_le_count,
    List.duplicate_iff_exists_distinct_get]
  constructor
  · rintro ⟨m, n, hlt, hm, hn⟩
    rw [hget] at hm hn
    have hmn : (m : Nat) < n := hlt
    by_cases hmp : (m : Nat) = p
    · exact ⟨n, by omega, by omega, hn.symm⟩
    · exact ⟨m, by omega, hmp, hm.symm⟩
  · rintro ⟨q, hq, hne, hrep⟩
    rcases Nat.lt_or_gt_of_ne hne with hlt | hlt
    · exact ⟨⟨q, by omega⟩, ⟨p, by omega⟩, hlt, by rw [hget, hrep], by rw [hget]⟩
    · exact ⟨⟨p, by omega⟩, ⟨q, by omega⟩, hlt, by rw [hget], by rw [hget, hrep]⟩

/-- The order lists the representatives of all classes. -/
theorem perm_canonicals (hix : Index.build s = .ok ix)
    (horder : copyOrder s ix (Classes.ofIndex s ix settings) = .ok order) :
    order.Perm (Classes.ofIndex s ix settings).canonicals := by
  have h := copied_assembled hix horder
  have hnodup : (Classes.ofIndex s ix settings).canonicals.Nodup := List.nodup_range.filter _
  refine (List.perm_ext_iff_of_nodup h.ordered.nodup hnodup).mpr fun r => ?_
  rw [mem_canonicals_iff]
  constructor
  · intro hr
    obtain ⟨-, o, ho, -⟩ := known_of_copyOrder horder r hr
    exact ⟨lt_size_of_objectAt? ho, h.representative_of_mem horder hr⟩
  · rintro ⟨hlt, hrep⟩
    rw [Index.size_eq_length_ids] at hlt
    obtain ⟨p, hpos, hmem⟩ := h.covered (List.getElem_mem hlt)
    have hr := Index.position?_of_getElem? h.sound.nodup (List.getElem?_eq_getElem hlt)
    obtain rfl := Option.some.inj (hpos.symm.trans hr)
    rwa [hrep] at hmem

/-! ## The quotient -/

/-- A scene is the quotient of another one by its classes, along a map of ids. -/
structure IsQuotient (s : Scene K) (ix : Index) (c : Classes) (settings : OptimizerSettings)
    (f : ObjectId → ObjectId) (out : Scene K) : Prop where
  /-- The map is onto the arena. -/
  onto : ∀ y, y.index < out.size ↔ ∃ a ∈ s.reachable, f a = y
  size : out.size = c.count
  reachable : ∀ y, y.index < out.size → y ∈ out.reachable
  /-- Exactly the members of one class become one object. -/
  identifies : ∀ a ∈ s.reachable, ∀ b ∈ s.reachable,
    (f a = f b ↔ c.representativeOf? ix a = c.representativeOf? ix b)
  root : out.root = f s.root
  /-- An object becomes the copy of the object that represents its class.  It loses its texts where
  comments are ignored and the class has another member. -/
  object : ∀ a ∈ s.reachable, ∃ r o o', c.representativeOf? ix a = some r ∧ s.get? r = some o ∧
    out.get? (f a) = some o' ∧
    o.CopyOf (!settings.keepDefaults) f (settings.ignoreComments = true ∧
      ∃ b ∈ s.reachable, b ≠ a ∧ c.representativeOf? ix b = c.representativeOf? ix a) o' ∧
    o'.references = o.references.map (·.retarget f)
  frozen : ∀ y, out.isFrozen y = true ↔
    ∃ x o a, out.get? x = some o ∧ a ∈ o.attached.animators ∧ a.animation = y

omit [Scalar K] in
theorem representativeOf?_of_position? {id : ObjectId} {p : Nat} (hp : ix.position? id = some p) :
    c.representativeOf? ix id = ix.ids[c.representative p]? := by
  simp [Classes.representativeOf?, hp]

omit [Scalar K] in
theorem exists_position (hix : Index.Sound s ix) {id : ObjectId} (hid : id ∈ s.reachable) :
    ∃ p, ix.position? id = some p ∧ p < ix.size := by
  have hmem := hix.mem_ids_iff.mpr hid
  have hlt := List.idxOf_lt_length_of_mem hmem
  refine ⟨ix.ids.idxOf id, ?_, by rwa [Index.size_eq_length_ids]⟩
  exact Index.position?_of_getElem? hix.nodup (Index.Sound.getElem?_idxOf hmem)

/-- Objects with one representative are those whose positions have one. -/
theorem Copied.representativeOf?_eq_iff (h : Copied s ix settings c order out) {a b : ObjectId}
    {p q : Nat} (hp : ix.position? a = some p) (hq : ix.position? b = some q) :
    c.representativeOf? ix a = c.representativeOf? ix b ↔
      c.representative p = c.representative q := by
  rw [representativeOf?_of_position? hp, representativeOf?_of_position? hq]
  constructor
  · intro heq
    obtain ⟨p', hp', hmem⟩ := h.covered (List.mem_of_getElem? (Index.position?_eq_some hp))
    obtain rfl := Option.some.inj (hp.symm.trans hp')
    obtain ⟨r, -, hr, -⟩ := h.ordered.object _ hmem
    have hp' := Index.position?_of_getElem? h.sound.nodup hr
    have hq' := Index.position?_of_getElem? h.sound.nodup (heq ▸ hr)
    exact Option.some.inj (hp'.symm.trans hq')
  · intro heq
    rw [heq]

/-- The class of an object has another member exactly if it has more than one. -/
theorem exists_other_iff (h : Copied s ix settings (Classes.ofIndex s ix settings) order out)
    {a : ObjectId} {p : Nat} (hp : ix.position? a = some p) (hlt : p < ix.size) :
    (∃ b ∈ s.reachable, b ≠ a ∧ (Classes.ofIndex s ix settings).representativeOf? ix b =
        (Classes.ofIndex s ix settings).representativeOf? ix a) ↔
      1 < (Classes.ofIndex s ix settings).sizeOf
        ((Classes.ofIndex s ix settings).representative p) := by
  rw [one_lt_sizeOf_iff hlt]
  constructor
  · rintro ⟨b, hb, hne, hrep⟩
    obtain ⟨q, hq, hqlt⟩ := exists_position h.sound hb
    refine ⟨q, hqlt, ?_, (h.representativeOf?_eq_iff hq hp).mp hrep⟩
    rintro rfl
    exact hne (Option.some.inj
      ((Index.position?_eq_some hq).symm.trans (Index.position?_eq_some hp)))
  · rintro ⟨q, hqlt, hne, hrep⟩
    rw [Index.size_eq_length_ids] at hqlt
    have hq := Index.position?_of_getElem? h.sound.nodup (List.getElem?_eq_getElem hqlt)
    refine ⟨ix.ids[q], h.sound.mem_ids_iff.mp (List.getElem_mem hqlt), ?_,
      (h.representativeOf?_eq_iff hq hp).mpr hrep⟩
    intro heq
    rw [heq] at hq
    exact hne (Option.some.inj (hq.symm.trans hp))

/-- Exactly the animations that animators of the copy run are frozen. -/
theorem isFrozen_iff (h : Copied s ix settings c order (assembled s ix c settings order))
    (y : ObjectId) : (assembled s ix c settings order).isFrozen y = true ↔
    ∃ x o a, (assembled s ix c settings order).get? x = some o ∧ a ∈ o.attached.animators ∧
      a.animation = y := by
  rw [isFrozen_assembled]
  constructor
  · rintro ⟨o, ho, a, ha, hay⟩
    obtain ⟨x, hx⟩ := (mem_objects_iff h.arena_le_words).mp ho
    exact ⟨x, o, a, hx, ha, hay⟩
  · rintro ⟨x, o, a, hx, ha, hay⟩
    exact ⟨o, (mem_objects_iff h.arena_le_words).mpr ⟨x, hx⟩, a, ha, hay⟩

/-- **The copy of a scene is its quotient.**  Whatever the settings, the copy of an indexed scene
holds one object for every class, all of them reachable, and the object of a class is the copy of
its representative, with references led to copies. -/
theorem copy_isQuotient (hix : Index.build s = .ok ix)
    (hcopy : copy s ix (Classes.ofIndex s ix settings) settings = .ok out) :
    ∃ f, IsQuotient s ix (Classes.ofIndex s ix settings) settings f out := by
  obtain ⟨order, horder, rfl, -⟩ := copy_eq_ok_iff.mp hcopy
  have h := copied_assembled hix horder
  -- every object of the copy was copied from a representative
  have honto : ∀ y : ObjectId,
      y.index < (assembled s ix (Classes.ofIndex s ix settings) settings order).size →
      ∃ a ∈ ix.ids, copyId ix (Classes.ofIndex s ix settings) order a = y := by
    intro y hy
    obtain ⟨r, id, o, -, hid, -, -, hcopyId, -⟩ := h.exists_source horder hy
    exact ⟨id, List.mem_of_getElem? hid, hcopyId⟩
  refine ⟨copyId ix (Classes.ofIndex s ix settings) order,
    { onto := fun y => ⟨fun hy => ?_, ?_⟩
      size := h.size_eq.trans (perm_canonicals hix horder).length_eq
      reachable := fun y hy => ?_
      identifies := fun a ha b hb => ?_
      root := h.root
      object := fun a ha => ?_
      frozen := isFrozen_iff h }⟩
  · obtain ⟨a, ha, hay⟩ := honto y hy
    exact ⟨a, h.sound.mem_ids_iff.mp ha, hay⟩
  · rintro ⟨a, ha, rfl⟩
    exact h.index_copyId_lt (h.sound.mem_ids_iff.mpr ha)
  · obtain ⟨a, ha, rfl⟩ := honto y hy
    exact h.copyId_mem_reachable ha
  · obtain ⟨p, hp, -⟩ := exists_position h.sound ha
    obtain ⟨q, hq, -⟩ := exists_position h.sound hb
    rw [h.copyId_eq_iff hp hq, h.representativeOf?_eq_iff hp hq]
  · obtain ⟨p, hp, hlt⟩ := exists_position h.sound ha
    obtain ⟨p', x, hp', hmem, hx, hget⟩ := h.exists_copy (h.sound.mem_ids_iff.mpr ha)
    obtain rfl := Option.some.inj (hp.symm.trans hp')
    obtain ⟨-, o, ho, hknown⟩ := known_of_copyOrder horder _ hmem
    obtain rfl := Option.some.inj (hx.symm.trans ho)
    obtain ⟨r, hr, hrget⟩ := Option.bind_eq_some_iff.mp hx
    refine ⟨r, x, _, (representativeOf?_of_position? hp).trans hr, hrget, hget, ?_,
      references_copyObject _ _ _ _ _⟩
    rw [exists_other_iff h hp hlt]
    exact copyOf_copyObject _ _ _ _ hknown

/-- A sprite with two brushes that differ in their comments and run animations of their own. -/
def duet : Scene (BitVec 32) where
  objects := #[
    { content := .spriteShape { fillBrush := some ⟨1⟩, strokeBrush := some ⟨2⟩ } },
    { content := .colorBrush (some (.rgb 255 0 0))
      attached := { comment := some "inside", animators := [⟨"Color", ⟨3⟩, none⟩] } },
    { content := .colorBrush (some (.rgb 255 0 0))
      attached := { comment := some "outside", animators := [⟨"Color", ⟨4⟩, none⟩] } },
    { content := .expressionAnimation { expression := "fade" } },
    { content := .expressionAnimation { expression := "fade" } }]

def duetIndex : Index where
  nodes := [
    ⟨⟨0⟩, []⟩,
    ⟨⟨1⟩, [⟨0, .fillBrush⟩]⟩,
    ⟨⟨3⟩, [⟨1, .animation 0⟩]⟩,
    ⟨⟨2⟩, [⟨0, .strokeBrush⟩]⟩,
    ⟨⟨4⟩, [⟨3, .animation 0⟩]⟩]
  postOrder := [2, 1, 4, 3, 0]

/-- The copy of the duet where comments are ignored: one brush without a comment. -/
def duetCopy : Scene (BitVec 32) where
  root := ⟨2⟩
  objects := #[
    { content := .expressionAnimation { expression := "fade" } },
    { content := .colorBrush (some (.rgb 255 0 0))
      attached := { animators := [⟨"Color", ⟨0⟩, none⟩] } },
    { content := .spriteShape { fillBrush := some ⟨1⟩, strokeBrush := some ⟨1⟩ } }]
  frozen := [⟨0⟩]

theorem duetCopy_isQuotient :
    Index.build duet = .ok duetIndex ∧
    copy duet duetIndex (Classes.ofIndex duet duetIndex { ignoreComments := true })
      { ignoreComments := true } = .ok duetCopy ∧
    ∃ f, IsQuotient duet duetIndex (Classes.ofIndex duet duetIndex { ignoreComments := true })
      { ignoreComments := true } f duetCopy := by
  have hix : Index.build duet = .ok duetIndex := by cbv
  have hcopy : copy duet duetIndex (Classes.ofIndex duet duetIndex { ignoreComments := true })
      { ignoreComments := true } = .ok duetCopy := by cbv
  exact ⟨hix, hcopy, copy_isQuotient hix hcopy⟩

end Diorama.Merge
