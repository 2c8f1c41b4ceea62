/-
  The order of the arena.

  In what the optimizer makes every object comes after all that it refers to, and the root comes
  last (`Scene.Sorted`).  Two things are behind this.

  The walk over classes finishes a class after the classes it refers to.  When a class is finished,
  all it refers to was finished before: it was visited in between, and a visit that finds its class
  entered finds it finished as well.  For what is still to be finished is heavier than what is
  visited before that (`Heavier`), and objects of one class are equally heavy.

  Edits keep the order.  An edited object refers to nothing new but what it referred to through
  others, and that stands before it all the more.  This holds for a pass that fails halfway as well:
  the scene is in order wherever a run stops (`Editing.Keeps`).
-/
import Mathlib
import Diorama.Proofs.SecondRun

namespace Diorama

/-! ## The walk finishes what an object refers to first -/

namespace Merge

variable {K : Type} {s : Scene K} {ix : Index} {c : Classes}

/-- The classes of all that a representative refers to are in a list. -/
def Served (s : Scene K) (ix : Index) (c : Classes) (done : List Nat) (r : Nat) : Prop :=
  ∀ id t, ix.ids[r]? = some id → s.Refers id t → Covered ix c done t

/-- What is served stays served when more is done. -/
theorem Served.mono {done done' : List Nat} {r : Nat} (h : Served s ix c done r)
    (hsub : done ⊆ done') : Served s ix c done' r := by
  intro id t hid ht
  obtain ⟨p, hp, hmem⟩ := h id t hid ht
  exact ⟨p, hp, hsub hmem⟩

/-- If a visit sees to it that its class is finished, every class is finished after those it refers
to. -/
def Awaits (s : Scene K) (ix : Index) (c : Classes) : List Nat → List CopyTask → Prop
  | _, [] => True
  | done, .visit id :: rest =>
    ∀ p, ix.position? id = some p → Awaits s ix c (c.representative p :: done) rest
  | done, .finish r :: rest => Served s ix c done r ∧ Awaits s ix c (r :: done) rest

/-- What waits for the done waits for more of it. -/
theorem Awaits.mono {done done' : List Nat} {tasks : List CopyTask} (h : Awaits s ix c done tasks)
    (hsub : done ⊆ done') : Awaits s ix c done' tasks := by
  induction tasks generalizing done done' with
  | nil => trivial
  | cons task rest ih =>
    cases task with
    | visit id => exact fun p hp => ih (h p hp) (List.cons_subset_cons _ hsub)
    | finish r => exact ⟨h.1.mono hsub, ih h.2 (List.cons_subset_cons _ hsub)⟩

/-- After some visits their classes are finished. -/
theorem Awaits.visits {done : List Nat} {ids : List ObjectId} {rest : List CopyTask}
    (h : ∀ done', done ⊆ done' →
      (∀ t ∈ ids, ∀ p, ix.position? t = some p → c.representative p ∈ done') →
      Awaits s ix c done' rest) :
    Awaits s ix c done (ids.map .visit ++ rest) := by
  induction ids generalizing done with
  | nil => exact h done (List.Subset.refl _) (by simp)
  | cons id ids ih =>
    intro p hp
    refine ih fun done' hsub hvisited => h done' ?_ ?_
    · exact fun r hr => hsub (List.mem_cons_of_mem _ hr)
    · intro t ht q hq
      rcases List.mem_cons.mp ht with rfl | ht
      · obtain rfl := Option.some.inj (hp.symm.trans hq)
        exact hsub List.mem_cons_self
      · exact hvisited t ht q hq

/-- What is still to be finished is heavier than what is visited before that. -/
def Heavier (s : Scene K) (ix : Index) : List CopyTask → Prop
  | [] => True
  | .visit id :: rest =>
    (∀ r ∈ finishing rest, ix.weight s id < (weightAt s ix r).getD 0) ∧ Heavier s ix rest
  | .finish _ :: rest => Heavier s ix rest

/-- Objects to visit that are lighter than whatever is to be finished. -/
theorem Heavier.visits {ids : List ObjectId} {rest : List CopyTask} (h : Heavier s ix rest)
    (hids : ∀ t ∈ ids, ∀ r ∈ finishing rest, ix.weight s t < (weightAt s ix r).getD 0) :
    Heavier s ix (ids.map .visit ++ rest) := by
  induction ids with
  | nil => exact h
  | cons id ids ih =>
    refine ⟨fun r hr => ?_, ih fun t ht => hids t (List.mem_cons_of_mem _ ht)⟩
    change r ∈ finishing (ids.map .visit ++ rest) at hr
    rw [finishing_append, finishing_visits, List.nil_append] at hr
    exact hids id List.mem_cons_self r hr

/-- The state of the walk, with classes finished in order so far. -/
structure Finishing (s : Scene K) (ix : Index) (c : Classes) (tasks : List CopyTask)
    (entered finished : List Nat) : Prop where
  copying : Copying s ix c tasks entered finished
  awaits : Awaits s ix c finished tasks
  heavier : Heavier s ix tasks
  served : ∀ i r, finished[i]? = some r → Served s ix c (finished.take i) r

namespace Finishing

variable {rest : List CopyTask} {entered finished : List Nat}

/-- A representative is finished after all it refers to. -/
theorem finish_step {r : Nat} (h : Finishing s ix c (.finish r :: rest) entered finished) :
    Finishing s ix c rest entered (finished ++ [r]) where
  copying := h.copying.finish_step
  awaits := h.awaits.2.mono (by simp)
  heavier := h.heavier
  served := by
    intro i q hq
    rcases Nat.lt_or_ge i finished.length with hi | hi
    · rw [List.getElem?_append_left hi] at hq
      rw [List.take_append_of_le_length (Nat.le_of_lt hi)]
      exact h.served i q hq
    · rw [List.getElem?_append_right hi, List.getElem?_singleton] at hq
      split at hq
      · obtain rfl := Option.some.inj hq
        have hall : finished ⊆ (finished ++ [r]).take i := by
          intro x hx
          rw [List.take_append, List.take_of_length_le hi]
          exact List.mem_append_left _ hx
        exact h.awaits.1.mono hall
      · cases hq

variable (hweight : ∀ {id p}, ix.position? id = some p →
  (weightAt s ix (c.representative p)).getD 0 = ix.weight s id)

include hweight

/-- Nothing is to be done for an object whose representative was entered. -/
theorem seen_step {id : ObjectId} {p : Nat} (hpos : ix.position? id = some p)
    (hseen : c.representative p ∈ entered)
    (h : Finishing s ix c (.visit id :: rest) entered finished) :
    Finishing s ix c rest entered finished := by
  -- the class is not still to be finished, as it is not heavier than itself
  have hfinished : c.representative p ∈ finished := by
    rcases List.mem_append.mp (h.copying.finished.symm.subset hseen) with hmem | hmem
    · exact hmem
    · have hlt := h.heavier.1 _ hmem
      rw [hweight hpos] at hlt
      exact absurd hlt (Nat.lt_irrefl _)
  refine ⟨h.copying.seen_step hpos hseen, (h.awaits p hpos).mono ?_, h.heavier.2, h.served⟩
  exact List.cons_subset.mpr ⟨hfinished, List.Subset.refl _⟩

/-- What an entered object refers to is visited before the object is finished. -/
theorem enter_step (hix : Index.Sound s ix) {id rid : ObjectId} {p : Nat} {o : Object K}
    (hpos : ix.position? id = some p) (hnew : c.representative p ∉ entered)
    (hrid : ix.ids[c.representative p]? = some rid) (hget : s.get? rid = some o)
    (h : Finishing s ix c (.visit id :: rest) entered finished) :
    Finishing s ix c (o.copyOrder.map .visit ++ .finish (c.representative p) :: rest)
      (entered ++ [c.representative p]) finished := by
  have hrefers : ∀ t, t ∈ o.copyOrder ↔ s.Refers rid t := by
    intro t
    rw [mem_copyOrder, Scene.Refers, Scene.targetsOf_of_get? hget]
  refine ⟨h.copying.enter_step hpos hnew hrid hget, ?_, ?_, h.served⟩
  · refine Awaits.visits fun done hsub hvisited => ⟨?_, ?_⟩
    · intro a t ha ht
      obtain rfl := Option.some.inj (hrid.symm.trans ha)
      obtain ⟨q, hq, -⟩ := exists_position hix
        (hix.mem_ids_iff.mp (hix.rank_lt (List.mem_of_getElem? hrid) ht).1)
      exact ⟨q, hq, hvisited t ((hrefers t).mpr ht) q hq⟩
    · exact (h.awaits p hpos).mono (List.cons_subset_cons _ hsub)
  · refine Heavier.visits h.heavier.2 fun t ht r hr => ?_
    -- the representative is as heavy as the object that was to be visited
    have hlighter := Index.weight_lt hix (List.mem_of_getElem? hrid) ((hrefers t).mp ht)
    have hsame : ix.weight s rid = ix.weight s id := by
      rw [← hweight hpos, weightAt, hrid]
      rfl
    rcases List.mem_cons.mp hr with rfl | hr
    · rw [hweight hpos]
      omega
    · have hheavier := h.heavier.1 r hr
      omega

end Finishing

/-- **The walk finishes a class after the classes it refers to.** -/
theorem served_of_copyWalk (hix : Index.Sound s ix)
    (hweight : ∀ {id p}, ix.position? id = some p →
      (weightAt s ix (c.representative p)).getD 0 = ix.weight s id)
    {tasks : List CopyTask} {entered finished order : List Nat}
    (hwalk : copyWalk s ix c tasks entered finished = .ok order)
    (h : Finishing s ix c tasks entered finished) :
    ∀ i r, order[i]? = some r → Served s ix c (order.take i) r := by
  fun_induction copyWalk s ix c tasks entered finished with
  | case1 entered finished =>
    obtain rfl := Except.ok.inj hwalk
    exact h.served
  | case2 entered finished rest r ih => exact ih hwalk h.finish_step
  | case3 => cases hwalk
  | case4 entered finished rest id p hpos hseen ih =>
    exact ih hwalk (h.seen_step hweight hpos hseen)
  | case5 => cases hwalk
  | case6 => cases hwalk
  | case7 => cases hwalk
  | case8 entered finished rest id p hpos hnew rid hrid o hget _ ih =>
    exact ih hwalk (h.enter_step hweight hix hpos hnew hrid hget)

end Merge

/-! ## Arenas in order -/

namespace Scene

variable {K : Type} {s : Scene K}

/-- Every object comes after all that it refers to, and the root comes last. -/
structure Sorted (s : Scene K) : Prop where
  lower : ∀ id o, s.get? id = some o → ∀ r ∈ o.references, r.target.index < id.index
  root : s.root.index + 1 = s.size

/-- Where objects come after what they refer to, the place in the arena is a rank. -/
theorem ranked_of_lower
    (h : ∀ id o, s.get? id = some o → ∀ r ∈ o.references, r.target.index < id.index) :
    s.Ranked (fun id => id.index < s.size) ObjectId.index := by
  have hlower : ∀ a b, s.Refers a b → b.index < a.index := by
    intro a b hab
    obtain ⟨o, ho, hb⟩ := exists_get?_of_refers hab
    obtain ⟨r, hr, rfl⟩ := List.mem_map.mp hb
    exact h a o ho r hr
  exact
    { object := fun hid => ⟨_, Array.getElem?_eq_getElem hid⟩
      closed := fun ha hab => Nat.lt_trans (hlower _ _ hab) ha
      descends := fun _ hab => hlower _ _ hab
      bounded := fun hid => hid }

namespace Sorted

variable (h : s.Sorted)

include h

/-- The position in the arena is a rank. -/
theorem ranked : s.Ranked (fun id => id.index < s.size) ObjectId.index := ranked_of_lower h.lower

/-- References go down in the arena. -/
theorem target_lt {id t : ObjectId} {o : Object K} (ho : s.get? id = some o) (ht : t ∈ o.targets) :
    t.index < id.index :=
  h.ranked.descends (index_lt_size ho) (refers_of_get? ho ht)

theorem root_lt : s.root.index < s.size := by
  have hroot := h.root
  omega

/-- An arena in order is valid. -/
theorem validate : s.validate = .ok () := by
  obtain ⟨o, ho⟩ := h.ranked.object h.root_lt
  refine validate_of_forall ho fun id p hp t ht => ?_
  exact h.ranked.object (h.ranked.closed (index_lt_size hp) (refers_of_get? hp ht))

/-- An object may be put in the place of another one if it refers to what stands before that
place. -/
theorem set {id : ObjectId} {o o' : Object K} (ho : s.get? id = some o)
    (hlower : ∀ t ∈ o'.targets, t.index < id.index) : (s.set id o').Sorted where
  lower := by
    intro y p hp r hr
    by_cases hy : y = id
    · subst hy
      rw [get?_set_self ho] at hp
      cases hp
      exact hlower r.target (List.mem_map_of_mem hr)
    · rw [get?_set_of_ne hy] at hp
      exact h.lower y p hp r hr
  root := by
    have hsize : (s.set id o').size = s.size := by simp [size, Scene.set]
    rw [hsize]
    exact h.root

end Sorted
end Scene

/-- **The copy of a scene is in order.** -/
theorem Merge.Copied.sorted {K : Type} [Scalar K] {s out : Scene K} {ix : Index} {c : Classes}
    {settings : OptimizerSettings} {order : List Nat} (h : Copied s ix settings c order out)
    (horder : copyOrder s ix c = .ok order) : out.Sorted := by
  have hstart : Finishing s ix c [.visit s.root] [] [] :=
    ⟨⟨List.nodup_nil, .nil, by simp, Or.inr List.mem_cons_self, by simp⟩, fun _ _ => trivial,
      ⟨by simp [finishing], trivial⟩, by simp⟩
  have hserved := served_of_copyWalk h.sound h.weightAt_representative horder hstart
  have hlower : ∀ id o, out.get? id = some o → ∀ r ∈ o.references, r.target.index < id.index := by
    intro y q hq ref href
    obtain ⟨r, id, o, hr, hid, hget, -, -, hcopy⟩ := h.exists_source horder (Scene.index_lt_size hq)
    obtain rfl := Option.some.inj (hq.symm.trans hcopy)
    have htarget : ref.target ∈ o.targets.map (copyId ix c order) := by
      rw [← targets_copyObject]
      exact List.mem_map_of_mem href
    obtain ⟨a, ha, hcopied⟩ := List.mem_map.mp htarget
    obtain ⟨p, hp, hmem⟩ := hserved _ r hr id a hid (Scene.refers_of_get? hget ha)
    have hlisted := List.mem_of_mem_take hmem
    rw [← hcopied, h.index_copyId hp hlisted]
    exact (List.mem_take_iff_idxOf_lt hlisted).mp hmem
  refine ⟨hlower, ?_⟩
  have hranked := Scene.ranked_of_lower hlower
  have hroot : out.root.index < out.size := by
    rw [h.root]
    exact h.index_copyId_lt h.sound.root_mem
  -- the last object is reachable, and nothing that is reachable comes after the root
  have hwords := h.arena_le_words
  have hlast : (ObjectId.ofIndex (out.size - 1)).index = out.size - 1 :=
    ObjectId.index_ofIndex (by omega)
  have hreachable : ObjectId.ofIndex (out.size - 1) ∈ out.reachable :=
    (h.mem_reachable_iff horder).mpr (by omega)
  have hle := (hranked.reaches_lower hroot (Scene.reaches_of_mem_reachable hreachable)).2
  omega

/-! ## Edits keep the order -/

namespace Reduction

variable {K : Type}

open Editing

/-- A change keeps the order if the object refers to nothing new but what it referred to through
others. -/
theorem sorted_left_change {s : Scene K} (h : s.Sorted) {id : ObjectId} {f : Object K → Object K}
    (hf : ∀ o, s.get? id = some o →
      ∀ t ∈ (f o).targets, t ∈ o.targets ∨ ∃ c ∈ o.targets, s.Refers c t) :
    ((change id f).left s).Sorted := by
  rcases left_change id f s with hidle | ⟨o, ho, -, hset⟩
  · rw [hidle]
    exact h
  · rw [hset]
    refine h.set ho fun t ht => ?_
    rcases hf o ho t ht with hold | ⟨c, hc, hct⟩
    · exact h.target_lt ho hold
    · -- a reference of a reference stands before both
      have hlt := h.target_lt ho hc
      exact Nat.lt_trans (h.ranked.descends (Nat.lt_trans hlt (Scene.index_lt_size ho)) hct) hlt

/-- A change that leaves references alone keeps the order. -/
theorem keeps_sorted_change {id : ObjectId} {f : Object K → Object K}
    (hf : ∀ o, (f o).targets = o.targets) : Keeps Scene.Sorted (change id f) := by
  intro s h
  refine sorted_left_change h fun o _ t ht => .inl ?_
  rwa [hf o] at ht

/-- Dropping dead containers takes references away and adds none. -/
theorem keeps_sorted_dropDead (dead : List ObjectId) (x : ObjectId) :
    Keeps (Scene.Sorted (K := K)) (dropDead dead x) := by
  intro s h
  rcases dropDead_spec dead x s with ⟨hidle, -⟩ | ⟨o, shapes, n, ho, hshapes, -, -, -, hrun⟩
  · rwa [left_of_ok hidle]
  · rw [left_of_counted hrun]
    refine sorted_left_change h fun p hp t ht => .inl ?_
    obtain rfl := Option.some.inj (ho.symm.trans hp)
    rcases Object.mem_targets_withChildren ht with hkept | hold
    · refine Object.mem_targets_of_mem_children ?_
      rw [children_of_shapes? hshapes]
      exact List.mem_of_mem_filter hkept
    · exact hold

/-- Splicing refers to what was referred to through one object more. -/
theorem keeps_sorted_spliceObject (read : List ObjectId) (x : ObjectId) :
    Keeps (Scene.Sorted (K := K)) (spliceObject read x) := by
  intro s h
  rcases spliceObject_spec read x s with ⟨hidle, -⟩ | ⟨o, n, ho, -, -, hrun⟩
  · rwa [left_of_ok hidle]
  · rw [left_of_counted hrun]
    refine sorted_left_change h fun p hp t ht => ?_
    obtain rfl := Option.some.inj (ho.symm.trans hp)
    exact targets_splicedList ht

/-- The first pass keeps the order of the arena. -/
theorem keeps_sorted_removeDead : Keeps (Scene.Sorted (K := K)) removeDead :=
  dropDeadFrom_keeps (fun _ => .sumOver fun x _ => keeps_sorted_dropDead _ x) {}

theorem keeps_sorted_splice : Keeps (Scene.Sorted (K := K)) splice :=
  .get_bind fun _ => .sumOver fun x _ => keeps_sorted_spliceObject _ x

variable [Scalar K]

/-- Folding leaves references alone. -/
theorem keeps_sorted_foldObject (read : List ObjectId) (x : ObjectId) :
    Keeps (Scene.Sorted (K := K)) (foldObject read x) := by
  intro s h
  rcases foldObject_spec read x s with ⟨hidle, -⟩ | ⟨o, content, n, -, ho, -, hfold, hrun⟩
  · rwa [left_of_ok hidle]
  · rw [left_of_counted hrun]
    refine sorted_left_change h fun p hp t ht => .inl ?_
    obtain rfl := Option.some.inj (ho.symm.trans hp)
    have hrestyled := restyled_of_folds (folds_of_foldContent? hfold)
    rwa [targets_of_references_eq hrestyled.references] at ht

/-- Pushing down leaves references alone. -/
theorem keeps_sorted_pushObject (single : ObjectId → Bool) (x : ObjectId) :
    Keeps (Scene.Sorted (K := K)) (pushObject single x) := by
  refine keeps_pushObject (fun m c _ => ?_) fun _ => ?_
  · exact keeps_sorted_change fun p =>
      targets_of_references_eq (restyled_takeOver m p.content).references
  · exact keeps_sorted_change fun p =>
      targets_of_references_eq (restyled_dropMatrix p.content).references

theorem keeps_sorted_foldTransforms : Keeps (Scene.Sorted (K := K)) foldTransforms :=
  .get_bind fun _ => .sumOver fun x _ => keeps_sorted_foldObject _ x

theorem keeps_sorted_pushDown : Keeps (Scene.Sorted (K := K)) pushDown :=
  .get_bind fun _ => .sumOver fun x _ => keeps_sorted_pushObject _ x

/-- **A reduction keeps the order of the arena, wherever it stops.** -/
theorem keeps_sorted_reduce : Keeps (Scene.Sorted (K := K)) reduce :=
  keeps_reduce keeps_sorted_removeDead keeps_sorted_foldTransforms keeps_sorted_pushDown
    keeps_sorted_splice

/-- Every edit keeps the order of the arena. -/
theorem IsEdit.keeps_sorted {edit : Editing K Reduction} (h : IsEdit edit) :
    Keeps Scene.Sorted edit := by
  cases h with
  | dropDead dead x => exact keeps_sorted_dropDead dead x
  | foldObject read x => exact keeps_sorted_foldObject read x
  | pushObject single x => exact keeps_sorted_pushObject single x
  | spliceObject read x => exact keeps_sorted_spliceObject read x
  | removeDead => exact keeps_sorted_removeDead
  | foldTransforms => exact keeps_sorted_foldTransforms
  | pushDown => exact keeps_sorted_pushDown
  | splice => exact keeps_sorted_splice
  | reduce => exact keeps_sorted_reduce

end Reduction

/-! ## What the optimizer makes is in order -/

namespace Scene

variable {K : Type} [Scalar K] {s : Scene K} {settings : OptimizerSettings} {out : Optimized K}

/-- **What the optimizer makes is in order**, with or without reduction, so it passes its check and
can be indexed; and every edit keeps a scene in order, also one that fails halfway. -/
theorem optimize_sorted (h : s.optimize settings = .ok out) :
    out.scene.Sorted ∧ out.scene.validate = .ok () ∧ (∃ ix, Index.build out.scene = .ok ix) ∧
      ∀ edit : Editing K Reduction, Reduction.IsEdit edit → Editing.Keeps Sorted edit := by
  obtain ⟨ix, copied, hrun⟩ := optimize_eq_ok_iff.mp h
  obtain ⟨order, horder, rfl, -⟩ := Merge.copy_eq_ok_iff.mp hrun.copy
  have hcopied := Merge.copied_assembled hrun.index horder
  have hsorted := hcopied.sorted horder
  -- the result is sorted, and it is what is left of the copy
  have hend : out.scene.Sorted ∧ ∃ again, Index.build out.scene = .ok again := by
    cases hkeep : settings.keepTree with
    | true =>
      rw [(hrun.kept hkeep).1]
      exact ⟨hsorted, Merge.build_left hcopied horder (.start hsorted.ranked hsorted.root_lt)⟩
    | false =>
      have hreduce := hrun.reduced hkeep
      have hstop := Reduction.keeps_sorted_reduce _ hsorted
      rw [Editing.left_of_ok hreduce] at hstop
      have hunderway := (Reduction.reduce_settles hsorted.ranked hsorted.root_lt hreduce).1
      exact ⟨hstop, Merge.build_left hcopied horder hunderway⟩
  exact ⟨hend.1, hend.1.validate, hend.2, fun _ => Reduction.IsEdit.keeps_sorted⟩

/-- The optimised carousel is in order, it is valid and indexed, and edits keep it so. -/
theorem carousel_sorted :
    carousel.optimize {} = .ok carouselOnce ∧ carouselOnce.scene.Sorted ∧
    carouselOnce.scene.validate = .ok () ∧
    (∃ ix, Index.build carouselOnce.scene = .ok ix) ∧
    ∀ edit : Editing (BitVec 32) Reduction, Reduction.IsEdit edit → Editing.Keeps Sorted edit := by
  have hix : Index.build carousel = .ok carouselIndex := by cbv
  have honce : carousel.optimize {} = .ok carouselOnce := by
    rw [optimize_of_copy hix carousel_copy (by simp) fun _ => carousel_reduce]
    cbv
  exact ⟨honce, optimize_sorted honce⟩

end Scene
end Diorama
