/-
  Objects of every kind are counted, and their number never grows.

  Three numbers belong to a kind: how many objects of it are reachable in the given scene, in how
  many classes they fall, and how many objects of it are reachable in the result.  The classes of a
  kind and the merges that are reported for it add up to its objects, since a merge joins two
  classes of the kind that it is reported under.  The arena of the copy holds one object for every
  class, and a reduction adds none and keeps every kind; so the third number is not above the
  second.

  Every round but the last leaves fewer classes, which bounds the number of rounds.
-/
import Mathlib
import Diorama.Proofs.ReductionFrame
import Diorama.Proofs.SecondRun
import Diorama.Proofs.VisitOrder

namespace Diorama

variable {K : Type}

/-! ## Objects of a kind -/

/-- The kind of the object with an id. -/
def Scene.kindOf? (s : Scene K) (id : ObjectId) : Option Kind := (s.get? id).map Object.kind

/-- The number of reachable objects of a kind. -/
def Scene.countOf (s : Scene K) (kind : Kind) : Nat :=
  s.reachable.countP fun id => s.kindOf? id = some kind

/-- The number of classes of a kind; `kindAt?` of a representative is the kind of the whole
class. -/
def Classes.countOf (c : Classes) (s : Scene K) (ix : Index) (kind : Kind) : Nat :=
  c.canonicals.countP fun p => Merge.kindAt? s ix p = some kind

/-- Positions are indexed objects, which are the reachable ones. -/
theorem countP_kindAt? {s : Scene K} {ix : Index} (hix : Index.build s = .ok ix)
    (P : Option Kind → Bool) :
    (List.range ix.size).countP (fun p => P (Merge.kindAt? s ix p)) =
      s.reachable.countP fun id => P (s.kindOf? id) := by
  have hpositions : (List.range ix.size).map (fun p => ix.ids[p]?) = ix.ids.map some := by
    refine List.ext_getElem (by simp [Index.size_eq_length_ids]) fun p hp hp' => ?_
    have hlt : p < ix.ids.length := by simpa using hp'
    simp [List.getElem?_eq_getElem hlt]
  have hcount := congrArg (List.countP fun id? => P ((id?.bind s.get?).map Object.kind)) hpositions
  rw [List.countP_map, List.countP_map] at hcount
  rw [← Index.ids_eq_reachable hix]
  exact hcount

/-! ## Classes and merges -/

namespace Classes

variable [Scalar K] {s : Scene K} {ix : Index} {settings : OptimizerSettings}

open Merge

/-- A class holds objects of one kind. -/
theorem kindAt?_representative (p : Nat) :
    kindAt? s ix ((ofIndex s ix settings).representative p) = kindAt? s ix p := by
  rw [ofIndex, representative_inTurns]
  exact (counted_ofIndex fun _ => true).alike p

/-- The merges and the classes of a kind add up to its objects. -/
theorem count_merges_add_countOf (settings : OptimizerSettings) (hix : Index.build s = .ok ix)
    (kind : Kind) :
    (ofIndex s ix settings).merges.count kind + (ofIndex s ix settings).countOf s ix kind =
      s.countOf kind := by
  have hmerges : (ofIndex s ix settings).merges.count kind =
      (ofIndex s ix settings).merges.countP fun k => some k = some kind :=
    List.countP_congr fun k _ => by simp
  calc (ofIndex s ix settings).merges.count kind + (ofIndex s ix settings).countOf s ix kind
      = (List.range ix.size).countP (fun p => kindAt? s ix p = some kind) := by
        rw [hmerges]
        exact countP_merges_add_canonicals fun k => k = some kind
    _ = s.countOf kind := countP_kindAt? hix fun k => k = some kind

omit [Scalar K] in
/-- What is reported for a kind is the number of its merges. -/
theorem lookup_merged (c : Classes) (kind : Kind) :
    (c.merged.lookup kind).getD 0 = c.merges.count kind := by
  -- over any list of kinds: a kind that is not counted is not listed, which counts as zero
  have hlookup : ∀ kinds : List Kind,
      (((kinds.map fun k => (k, c.merges.count k)).filter fun m => m.2 ≠ 0).lookup kind).getD 0 =
        if kind ∈ kinds then c.merges.count kind else 0 := by
    intro kinds
    induction kinds with
    | nil => rfl
    | cons k kinds ih =>
      by_cases hk : kind = k
      · subst hk
        by_cases hzero : c.merges.count kind = 0
        · rw [List.map_cons, List.filter_cons_of_neg (by simpa using hzero), ih]
          simp [hzero]
        · rw [List.map_cons, List.filter_cons_of_pos (by simpa using hzero)]
          simp
      · have hskip : ∀ l : List (Kind × Nat),
            ((k, c.merges.count k) :: l).lookup kind = l.lookup kind := by
          intro l
          rw [List.lookup_cons, beq_false_of_ne hk]
        rw [List.map_cons, List.filter_cons]
        split
        · rw [hskip, ih]
          simp [hk]
        · rw [ih]
          simp [hk]
  have hall : kind ∈ Kind.all := by cases kind <;> decide
  rw [merged, hlookup, if_pos hall]

omit [Scalar K] in
/-- The numbers that are reported add up to the number of merges. -/
theorem sum_merged (c : Classes) : (c.merged.map (·.2)).sum = c.merges.length := by
  have hfilter : ∀ l : List (Kind × Nat), ((l.filter fun m => m.2 ≠ 0).map (·.2)).sum =
      (l.map (·.2)).sum := by
    intro l
    induction l with
    | nil => rfl
    | cons m l ih =>
      by_cases hm : m.2 = 0
      · rw [List.filter_cons_of_neg (by simpa using hm), ih, List.map_cons, List.sum_cons, hm,
          Nat.zero_add]
      · rw [List.filter_cons_of_pos (by simpa using hm), List.map_cons, List.sum_cons, ih,
          List.map_cons, List.sum_cons]
  have hcounts : ∀ merges : List Kind, (Kind.all.map merges.count).sum = merges.length := by
    intro merges
    induction merges with
    | nil => rfl
    | cons kind merges ih =>
      -- every kind stands once in the list of all kinds
      have hone : (Kind.all.map fun k => if kind == k then 1 else 0).sum = 1 := by
        cases kind <;> rfl
      have hcons : (kind :: merges).count =
          fun k => merges.count k + if kind == k then 1 else 0 :=
        funext fun k => List.count_cons
      rw [hcons, List.sum_map_add, hone, List.length_cons, ← ih]
  rw [merged, hfilter, List.map_map]
  exact hcounts c.merges

/-! ## Rounds -/

/-- Every round but the last leaves fewer classes. -/
theorem rounds_add_count_le (turns : List Turn) (done : Nat) (state : State)
    (hsize : state.sets.size = ix.size) :
    done < (runRounds s ix settings turns done state).2 ∧
      (runRounds s ix settings turns done state).2 +
        (runRounds s ix settings turns done state).1.sets.count ≤ done + 1 + state.sets.count := by
  fun_induction runRounds s ix settings turns done state with
  | case1 done state next hlt ih =>
    obtain ⟨hmore, hle⟩ := ih ((size_runRound _ _).trans hsize)
    exact ⟨by omega, by omega⟩
  | case2 done state next hge =>
    have hle : next.sets.count ≤ state.sets.count :=
      (closed_of_runRound s ix settings turns state hsize).1
    exact ⟨Nat.lt_succ_self done, Nat.add_le_add_left hle (done + 1)⟩

/-- Merging takes a round, and no more rounds than there are objects. -/
theorem rounds_bounded (settings : OptimizerSettings) (hix : Index.build s = .ok ix) :
    1 ≤ (ofIndex s ix settings).rounds ∧ (ofIndex s ix settings).rounds ≤ ix.size := by
  have hsound := Index.sound_of_build hix
  obtain ⟨hsome, hle⟩ : 0 < (ofIndex s ix settings).rounds ∧
      (ofIndex s ix settings).rounds + (finalSets s ix settings (schedule ix)).count ≤
        0 + 1 + (DisjointSets.singletons ix.size).count :=
    rounds_add_count_le (schedule ix) 0 ⟨.singletons ix.size, []⟩ (by simp)
  have hstart : (DisjointSets.singletons ix.size).count = ix.size := by
    rw [DisjointSets.count_eq]
    simp
  -- the root of the scene is in some class
  have hclass : 0 < (finalSets s ix settings (schedule ix)).count := by
    have hpos : 0 < ix.size := by
      obtain ⟨hlt, -⟩ := List.getElem?_eq_some_iff.mp hsound.root
      rwa [Index.size_eq_length_ids]
    rw [DisjointSets.count_eq, size_finalSets, List.countP_pos_iff]
    refine ⟨0, List.mem_range.mpr hpos, decide_eq_true ?_⟩
    exact Nat.le_zero.mp (DisjointSets.root_le _ 0)
  rw [hstart] at hle
  exact ⟨hsome, by omega⟩

end Classes

/-! ## The optimizer -/

theorem Merge.kind_copyObject [Scalar K] (c : Classes) (settings : OptimizerSettings)
    (f : ObjectId → ObjectId) (r : Nat) (o : Object K) :
    (copyObject c settings f r o).kind = o.kind := by
  rw [Object.kind, content_copyObject, Content.kind_mapIds, Object.elided]
  split
  · rfl
  · exact Content.kind_withoutDefaults o.content

namespace Scene

variable [Scalar K] {s : Scene K} {settings : OptimizerSettings} {ix : Index} {copied : Scene K}
  {out : Optimized K}

theorem Optimizes.rearranged (h : s.Optimizes settings ix copied out) :
    copied.Rearranged out.scene := by
  cases hkeep : settings.keepTree with
  | true =>
    rw [(h.kept hkeep).1]
    exact .refl copied
  | false =>
    have hspared := Reduction.keeps_spared_reduce copied (.refl _ copied)
    rw [Editing.left_of_ok (h.reduced hkeep)] at hspared
    exact hspared.toRearranged

/-- An object of the result is of the kind of the class that it was copied from. -/
theorem Optimizes.exists_class (h : s.Optimizes settings ix copied out) {order : List Nat}
    (horder : Merge.copyOrder s ix (Classes.ofIndex s ix settings) = .ok order)
    (hcopied : Merge.Copied s ix settings (Classes.ofIndex s ix settings) order copied)
    {y : ObjectId} (hy : y ∈ out.scene.reachable) :
    ∃ r, order[y.index]? = some r ∧ Merge.kindAt? s ix r = out.scene.kindOf? y := by
  obtain ⟨q, hq⟩ := get?_of_mem_reachable hy
  obtain ⟨p, hp, hpq⟩ := h.rearranged.exists_before hq
  obtain ⟨r, id, o, hr, hid, ho, -, -, hcopy⟩ := hcopied.exists_source horder (index_lt_size hp)
  obtain rfl := Option.some.inj (hp.symm.trans hcopy)
  refine ⟨r, hr, ?_⟩
  rw [Merge.kindAt?, Merge.objectAt?, hid, Option.bind_some, ho, kindOf?, hq, Option.map_some,
    Option.map_some, hpq.kind, Merge.kind_copyObject]

/-- **A run leaves no more objects than there are classes**, among the objects of any kind. -/
theorem Optimizes.countP_le (h : s.Optimizes settings ix copied out) (P : Option Kind → Bool) :
    out.scene.reachable.countP (fun y => P (out.scene.kindOf? y)) ≤
      (Classes.ofIndex s ix settings).canonicals.countP fun p => P (Merge.kindAt? s ix p) := by
  obtain ⟨order, rank, horder, hcopied, -⟩ := h.underway
  have hclass := fun {y} => h.exists_class horder hcopied (y := y)
  -- the class of an object of the result
  let source : ObjectId → Nat := fun y => order.getD y.index 0
  have hsource : ∀ y ∈ out.scene.reachable, source y ∈ order ∧
      Merge.kindAt? s ix (source y) = out.scene.kindOf? y := by
    intro y hy
    obtain ⟨r, hr, hkind⟩ := hclass hy
    simp only [source, List.getD_eq_getElem?_getD, hr, Option.getD_some]
    exact ⟨List.mem_of_getElem? hr, hkind⟩
  have hinj : ∀ y ∈ out.scene.reachable, ∀ z ∈ out.scene.reachable,
      source y = source z → y = z := by
    intro y hy z hz heq
    obtain ⟨r, hr, -⟩ := hclass hy
    obtain ⟨r', hr', -⟩ := hclass hz
    simp only [source, List.getD_eq_getElem?_getD, hr, hr', Option.getD_some] at heq
    obtain ⟨hlt, hget⟩ := List.getElem?_eq_some_iff.mp hr
    obtain ⟨hlt', hget'⟩ := List.getElem?_eq_some_iff.mp hr'
    have hsame : order[y.index] = order[z.index] := by rw [hget, hget', heq]
    exact ObjectId.index_injective (hcopied.ordered.nodup.getElem_inj_iff.mp hsame)
  have hsubperm : (out.scene.reachable.map source).Subperm order := by
    refine List.subperm_of_subset (out.scene.reachable_nodup.map_on hinj) fun r hr => ?_
    obtain ⟨y, hy, rfl⟩ := List.mem_map.mp hr
    exact (hsource y hy).1
  calc out.scene.reachable.countP (fun y => P (out.scene.kindOf? y))
      = (out.scene.reachable.map source).countP (fun p => P (Merge.kindAt? s ix p)) := by
        rw [List.countP_map]
        exact List.countP_congr fun y hy => by rw [Function.comp, (hsource y hy).2]
    _ ≤ order.countP (fun p => P (Merge.kindAt? s ix p)) := hsubperm.countP_le _
    _ = _ := (Merge.perm_canonicals h.index horder).countP_eq _

/-- **No kind grows, and the report adds up.**  Of every run that succeeds, whatever the settings,
and for every kind: the objects of the kind that are reachable in the result are at most as many as
its classes, and these are as many as the reachable objects of the kind that were given, less the
merges that are reported for it.  A class holds objects of one kind.  So the numbers of objects in
the report do not grow, what is reported as merged is the difference of the first two, and the
number of rounds is at least one and at most the number of objects that were given. -/
theorem optimize_counts (hrun : s.optimize settings = .ok out) :
    ∃ ix, Index.build s = .ok ix ∧
      (∀ p, Merge.kindAt? s ix ((Classes.ofIndex s ix settings).representative p) =
        Merge.kindAt? s ix p) ∧
      (∀ kind, out.scene.countOf kind ≤ (Classes.ofIndex s ix settings).countOf s ix kind ∧
        (Classes.ofIndex s ix settings).countOf s ix kind =
          s.countOf kind - (out.report.merged.lookup kind).getD 0 ∧
        (out.report.merged.lookup kind).getD 0 ≤ s.countOf kind) ∧
      out.report.outputObjects = out.scene.reachable.length ∧
      out.report.canonicalObjects = (Classes.ofIndex s ix settings).canonicals.length ∧
      out.report.inputObjects = s.reachable.length ∧
      out.report.outputObjects ≤ out.report.canonicalObjects ∧
      out.report.canonicalObjects ≤ out.report.inputObjects ∧
      (out.report.merged.map (·.2)).sum = out.report.inputObjects - out.report.canonicalObjects ∧
      1 ≤ (Classes.ofIndex s ix settings).rounds ∧
      (Classes.ofIndex s ix settings).rounds ≤ out.report.inputObjects := by
  obtain ⟨ix, copied, h⟩ := optimize_eq_ok_iff.mp hrun
  -- objects, classes and merges add up; the inequalities follow from that
  have hinput : out.report.inputObjects = s.reachable.length := by
    rw [h.inputObjects, Index.size_eq_length_ids, Index.ids_eq_reachable h.index]
  have htotal : (Classes.ofIndex s ix settings).merges.length +
      (Classes.ofIndex s ix settings).count = ix.size := Classes.length_merges_add_count
  have hsum :
      (out.report.merged.map (·.2)).sum = (Classes.ofIndex s ix settings).merges.length := by
    rw [h.merged, Classes.sum_merged]
  have hall : out.scene.reachable.length ≤ (Classes.ofIndex s ix settings).count := by
    simpa [Classes.count] using h.countP_le fun _ => true
  obtain ⟨hsome, hrounds⟩ := Classes.rounds_bounded settings h.index
  rw [← h.inputObjects, ← h.canonicalObjects] at htotal
  refine ⟨ix, h.index, Classes.kindAt?_representative, fun kind => ⟨?_, ?_⟩, h.outputObjects,
    h.canonicalObjects, hinput, ?_, by omega, by omega, hsome, ?_⟩
  · exact h.countP_le fun k => k = some kind
  · have hkind := Classes.count_merges_add_countOf settings h.index kind
    rw [h.merged, Classes.lookup_merged]
    exact ⟨by omega, by omega⟩
  · rwa [h.outputObjects, h.canonicalObjects]
  · rwa [h.inputObjects]

/-- The duet has two brushes and two animations, and one of each is merged into the other. -/
theorem duet_counts :
    Merge.duet.optimize plainCopying = .ok duetOnce ∧ Merge.duet.countOf .colorBrush = 2 ∧
    ∃ ix, Index.build Merge.duet = .ok ix ∧
      (Classes.ofIndex Merge.duet ix plainCopying).countOf Merge.duet ix .colorBrush = 1 ∧
      duetOnce.scene.countOf .colorBrush ≤ 1 ∧
      1 ≤ (Classes.ofIndex Merge.duet ix plainCopying).rounds ∧
      (Classes.ofIndex Merge.duet ix plainCopying).rounds ≤ 5 := by
  have hrun : Merge.duet.optimize plainCopying = .ok duetOnce := by cbv
  have htwo : Merge.duet.countOf .colorBrush = 2 := by cbv
  obtain ⟨ix, hix, -, hkinds, -, -, -, -, -, -, hsome, hrounds⟩ := optimize_counts hrun
  obtain ⟨hout, hclasses, -⟩ := hkinds .colorBrush
  have hone : (duetOnce.report.merged.lookup .colorBrush).getD 0 = 1 := by cbv
  rw [htwo, hone] at hclasses
  rw [hclasses] at hout
  exact ⟨hrun, htwo, ix, hix, hclasses, hout, hsome, hrounds⟩

end Scene
end Diorama
