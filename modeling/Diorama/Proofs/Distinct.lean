/-
  When nothing is merged.

  Every merge makes one class of two, so merges and classes add up to the indexed objects, and they
  do so among the objects of any kind (`countP_merges_add_canonicals`).  Nothing is merged exactly
  if no two objects have the same key to begin with:  then the relation that keeps everything apart
  is a congruence, and so the least one.  Every object then represents itself.
-/
import Mathlib
import Diorama.Proofs.Indexability
import Diorama.Proofs.LeastCongruence

namespace Diorama

/-! ## Counting sets -/

namespace DisjointSets

variable (d : DisjointSets)

/-- A join of two sets takes away one root, the larger of the two, and no other. -/
theorem countP_union {a b : Nat} (ha : a < d.size) (hb : b < d.size) (P : Nat → Bool) :
    (List.range d.size).countP (fun x => (d.union a b).2.root x = x && P x) +
        (if (d.union a b).1 && P (max (d.root a) (d.root b)) then 1 else 0) =
      (List.range d.size).countP fun x => d.root x = x && P x := by
  have hroot := d.root_union ha hb
  rw [union_fst]
  by_cases h : d.root a = d.root b
  · simp [d.root_union_of_eq ha hb h, h]
  · have hmax : max (d.root a) (d.root b) ∈ List.range d.size := by
      have := d.root_lt_size ha
      have := d.root_lt_size hb
      exact List.mem_range.mpr (by omega)
    -- the greater of the two roots stops being one, and no other root does
    have hrest : ∀ x, (d.union a b).2.root x = x ↔
        d.root x = x ∧ x ≠ max (d.root a) (d.root b) := by
      intro x
      have hra := d.root_root a
      have hrb := d.root_root b
      rw [hroot]
      rcases Nat.le_total (d.root a) (d.root b) with hle | hle
      · rw [Nat.max_eq_right hle, Nat.min_eq_left hle]
        split
        · grind
        · grind
      · rw [Nat.max_eq_left hle, Nat.min_eq_right hle]
        split
        · grind
        · grind
    have hroots : d.root (max (d.root a) (d.root b)) = max (d.root a) (d.root b) := by
      rcases Nat.le_total (d.root a) (d.root b) with hle | hle
      · simp [Nat.max_eq_right hle]
      · simp [Nat.max_eq_left hle]
    -- so the counts differ at that root and nowhere else
    have hsplit := List.perm_cons_erase hmax
    have hnot :=
      List.nodup_range.not_mem_erase (a := max (d.root a) (d.root b)) (l := List.range d.size)
    rw [hsplit.countP_eq, hsplit.countP_eq, List.countP_cons, List.countP_cons]
    have hsame : ((List.range d.size).erase (max (d.root a) (d.root b))).countP
        (fun x => (d.union a b).2.root x = x && P x) =
        ((List.range d.size).erase (max (d.root a) (d.root b))).countP
          fun x => d.root x = x && P x := by
      refine List.countP_congr fun x hx => ?_
      have hne : x ≠ max (d.root a) (d.root b) := fun heq => hnot (heq ▸ hx)
      simp [hrest, hne]
    rw [hsame]
    simp [hrest, hroots, h]

end DisjointSets

namespace Merge

variable {K : Type} [Scalar K] (s : Scene K) (ix : Index) (settings : OptimizerSettings)

/-! ## Counting merges -/

/-- The kind of the object at a position. -/
def kindAt? (p : Nat) : Option Kind := (objectAt? s ix p).map Object.kind

/-- Sets hold objects of one kind, and among the objects of some kinds, merges and sets add up to
what is indexed. -/
structure Counted (P : Option Kind → Bool) (state : State) : Prop where
  size : state.sets.size = ix.size
  alike : ∀ x, kindAt? s ix (state.sets.root x) = kindAt? s ix x
  count : state.merges.countP (fun kind => P (some kind)) +
      (List.range ix.size).countP (fun x => state.sets.root x = x && P (kindAt? s ix x)) =
    (List.range ix.size).countP fun x => P (kindAt? s ix x)

variable {s ix settings} {P : Option Kind → Bool}

/-- A key tells the kind, and the kind is that of the object in this position. -/
theorem kindAt?_of_keyAt? {pass : Pass} {d : DisjointSets} {p : Nat} {kind : Kind} {k : MergeKey}
    (h : keyAt? s ix settings pass d p = some (kind, k)) :
    p < ix.size ∧ kindAt? s ix p = some k.content.kind ∧ k.content.kind = kind := by
  obtain ⟨-, hkind, hkey⟩ := keyAt?_eq_some_iff.mp h
  obtain ⟨o, ho, -, hk⟩ := exists_object_of_keyUnder hkey
  refine ⟨lt_size_of_objectAt? ho, ?_, hkind⟩
  rw [kindAt?, ho, Object.kind_of_mergeKey? hk]
  rfl

omit [Scalar K] in
/-- Joining the sets of two objects of one kind. -/
theorem Counted.union {state : State} (h : Counted s ix P state) {p q : Nat} {kind : Kind}
    (hp : p < ix.size) (hq : q < ix.size) (hpkind : kindAt? s ix p = some kind)
    (hqkind : kindAt? s ix q = some kind) :
    Counted s ix P ⟨(state.sets.union q p).2,
      if (state.sets.union q p).1 then state.merges ++ [kind] else state.merges⟩ := by
  rw [← h.size] at hp hq
  have hroots : kindAt? s ix (state.sets.root p) = some kind ∧
      kindAt? s ix (state.sets.root q) = some kind :=
    ⟨(h.alike p).trans hpkind, (h.alike q).trans hqkind⟩
  refine ⟨by simpa using h.size, fun x => ?_, ?_⟩
  · rw [state.sets.root_union hq hp, ← h.alike x]
    split
    · rename_i hx
      rcases Nat.le_total (state.sets.root q) (state.sets.root p) with hle | hle
      · rw [Nat.min_eq_left hle, hroots.2]
        rcases hx with hx | hx
        · rw [hx, hroots.2]
        · rw [hx, hroots.1]
      · rw [Nat.min_eq_right hle, hroots.1]
        rcases hx with hx | hx
        · rw [hx, hroots.2]
        · rw [hx, hroots.1]
    · rfl
  · -- the root that is lost is of the kind that is recorded
    have hmax : kindAt? s ix (max (state.sets.root q) (state.sets.root p)) = some kind := by
      rcases Nat.le_total (state.sets.root q) (state.sets.root p) with hle | hle
      · rw [Nat.max_eq_right hle, hroots.1]
      · rw [Nat.max_eq_left hle, hroots.2]
    have hcount := state.sets.countP_union hq hp fun x => P (kindAt? s ix x)
    rw [hmax, h.size] at hcount
    have htotal := h.count
    cases hjoined : (state.sets.union q p).1 with
    | true =>
      simp only [hjoined, Bool.true_and, if_true, List.countP_append,
        List.countP_singleton] at hcount ⊢
      omega
    | false =>
      simp only [hjoined, Bool.false_and, Bool.false_eq_true, if_false] at hcount ⊢
      omega

/-- Joining positions of one kind leaves the count of every kind right, step by step. -/
theorem counted_runPositions (pass : Pass) (order : List Nat) (first : List (MergeKey × Nat))
    (state : State) (h : Counted s ix P state)
    (hfirst : ∀ k q, (k, q) ∈ first → q < ix.size ∧ kindAt? s ix q = some k.content.kind) :
    Counted s ix P (runPositions s ix settings pass order first state) := by
  fun_induction runPositions s ix settings pass order first state with
  | case1 => exact h
  | case2 p rest first state hkey ih => exact ih h hfirst
  | case3 p rest first state kind key hkey hnone ih =>
    refine ih h fun k q hmem => ?_
    rcases List.mem_cons.mp hmem with heq | hmem
    · obtain ⟨rfl, rfl⟩ := Prod.mk.inj heq
      obtain ⟨hp, hkind, -⟩ := kindAt?_of_keyAt? hkey
      exact ⟨hp, hkind⟩
    · exact hfirst k q hmem
  | case4 p rest first state kind key hkey q hsome joined sets hunion merges ih =>
    obtain ⟨hp, hpkind, rfl⟩ := kindAt?_of_keyAt? hkey
    obtain ⟨hq, hqkind⟩ := hfirst key q (mem_of_lookup hsome)
    have hunited := h.union hp hq hpkind hqkind
    rw [hunion] at hunited
    exact ih hunited hfirst

/-- A round is a list of turns, each with a record of its own. -/
theorem counted_runRound (turns : List Turn) (state : State) (h : Counted s ix P state) :
    Counted s ix P (runRound s ix settings turns state) := by
  induction turns generalizing state with
  | nil => exact h
  | cons turn turns ih =>
    exact ih _ (counted_runPositions turn.pass turn.order [] state h (by simp))

/-- Whatever number of rounds there is, the counts stay right. -/
theorem counted_runRounds (turns : List Turn) (done : Nat) (state : State)
    (h : Counted s ix P state) : Counted s ix P (runRounds s ix settings turns done state).1 := by
  fun_induction runRounds s ix settings turns done state with
  | case1 done state next hlt ih => exact ih (counted_runRound turns state h)
  | case2 done state next hge => exact counted_runRound turns state h

omit [Scalar K] in
/-- In the beginning everything is counted and nothing has been joined. -/
theorem counted_singletons (s : Scene K) (ix : Index) (P : Option Kind → Bool) :
    Counted s ix P ⟨.singletons ix.size, []⟩ :=
  ⟨by simp, by simp, by simp⟩

/-- A key in which nothing is merged, taken to classes, is the key under these classes. -/
theorem keyUnder_of_bot (hnodup : ix.ids.Nodup) {E : Setoid Nat} {p : Nat} {k : MergeKey}
    (h : keyUnder s ix settings ⊥ p = some k) :
    keyUnder s ix settings E p = some (k.mapIds (classId ix E)) := by
  rw [keyUnder_eq_map hnodup bot_le, h]
  rfl

end Merge

namespace Classes

variable {K : Type} [Scalar K] {s : Scene K} {ix : Index} {settings : OptimizerSettings}

open Merge

/-- Every position has a representative. -/
theorem length_representatives : (ofIndex s ix settings).representatives.length = ix.size := by
  rw [ofIndex, representatives_inTurns, List.length_map, List.length_range]

/-- The counts are right when the rounds end. -/
theorem counted_ofIndex (P : Option Kind → Bool) :
    Counted s ix P (runRounds s ix settings (schedule ix) 0 ⟨.singletons ix.size, []⟩).1 :=
  counted_runRounds (schedule ix) 0 _ (counted_singletons s ix P)

/-- **Every merge makes one class of two**, and these are classes of the kind that is recorded. -/
theorem countP_merges_add_canonicals (P : Option Kind → Bool) :
    (ofIndex s ix settings).merges.countP (fun kind => P (some kind)) +
        (ofIndex s ix settings).canonicals.countP (fun p => P (kindAt? s ix p)) =
      (List.range ix.size).countP fun p => P (kindAt? s ix p) := by
  have hclasses : (ofIndex s ix settings).canonicals.countP (fun p => P (kindAt? s ix p)) =
      (List.range ix.size).countP fun p =>
        (finalSets s ix settings (schedule ix)).root p = p && P (kindAt? s ix p) := by
    rw [canonicals, length_representatives, List.countP_filter]
    simp only [ofIndex, representative_inTurns, Bool.and_comm]
  rw [hclasses]
  exact (counted_ofIndex P).count

/-- **Every merge takes one class away.** -/
theorem length_merges_add_count :
    (ofIndex s ix settings).merges.length + (ofIndex s ix settings).count = ix.size := by
  have hall : (ofIndex s ix settings).merges.countP (fun _ => true) +
      (ofIndex s ix settings).canonicals.countP (fun _ => true) =
        (List.range ix.size).countP fun _ => true := countP_merges_add_canonicals fun _ => true
  simpa [count] using hall

/-- No kind is reported as merged exactly if there were no merges. -/
theorem merged_eq_nil_iff (c : Classes) : c.merged = [] ↔ c.merges = [] := by
  rw [merged, List.filter_eq_nil_iff]
  constructor
  · intro h
    refine List.eq_nil_iff_forall_not_mem.mpr fun kind hkind => ?_
    have hall : kind ∈ Kind.all := by cases kind <;> decide
    have hzero := h _ (List.mem_map_of_mem hall)
    have hpos := List.count_pos_iff.mpr hkind
    simp only [ne_eq, decide_not, Bool.not_eq_true', decide_eq_false_iff_not, not_not] at hzero
    omega
  · intro h m hm
    obtain ⟨kind, -, rfl⟩ := List.mem_map.mp hm
    simp [h]

/-! ## Distinct objects -/

omit [Scalar K] in
/-- Under the finest relation every object is its own class. -/
theorem classId_bot (ix : Index) : classId ix ⊥ = id := by
  funext a
  cases hpos : ix.position? a with
  | none => simp [classId, hpos]
  | some p =>
    have hleast : sInf {q | (⊥ : Setoid Nat) p q} = p := by
      have hset : {q | (⊥ : Setoid Nat) p q} = {p} := by
        ext q
        exact eq_comm
      rw [hset, csInf_singleton]
    have hclass := classId_of_position? ⊥ hpos
    rw [hleast, Index.position?_eq_some hpos] at hclass
    exact (Option.some.inj hclass).symm

variable (hix : Index.Sound s ix)

include hix

/-- Where no two objects have the same key, every object represents itself. -/
theorem representative_of_distinct (h : IsCongruence s ix settings ⊥) (p : Nat) :
    (ofIndex s ix settings).representative p = p := by
  have hleast : IsLeast {E | IsCongruence s ix settings E} (ofIndex s ix settings).relation :=
    isLeast_relation hix.nodup (complete_schedule hix)
  have hrelated : (ofIndex s ix settings).relation p ((ofIndex s ix settings).representative p) :=
    (isLeast_representative (schedule ix) p).1
  have heq : p = (ofIndex s ix settings).representative p := hleast.2 h hrelated
  exact heq.symm

/-- Where no two objects have one key, there are as many classes as objects. -/
theorem count_of_distinct (h : IsCongruence s ix settings ⊥) :
    (ofIndex s ix settings).count = ix.size := by
  simp [count, canonicals, representative_of_distinct hix h, length_representatives]

/-- **Nothing is merged exactly if positions of equal keys are equal.** -/
theorem merges_eq_nil_iff : (ofIndex s ix settings).merges = [] ↔ IsCongruence s ix settings ⊥ := by
  have htotal : (ofIndex s ix settings).merges.length + (ofIndex s ix settings).count = ix.size :=
    length_merges_add_count
  have hleast : IsLeast {E | IsCongruence s ix settings E} (ofIndex s ix settings).relation :=
    isLeast_relation hix.nodup (complete_schedule hix)
  constructor
  · intro hnone p q k hp hq
    have hpq := hleast.1 p q _ (keyUnder_of_bot hix.nodup hp) (keyUnder_of_bot hix.nodup hq)
    rw [hnone, List.length_nil, Nat.zero_add] at htotal
    -- as many classes as objects: every object represents itself
    have hself : ∀ x, x < ix.size → (ofIndex s ix settings).representative x = x := by
      rw [count, canonicals, length_representatives, ← List.countP_eq_length_filter] at htotal
      have hall := List.countP_eq_length.mp (htotal.trans List.length_range.symm)
      intro x hx
      exact of_decide_eq_true (hall x (List.mem_range.mpr hx))
    have hrep : (ofIndex s ix settings).representative p =
        (ofIndex s ix settings).representative q := hpq
    rw [hself p (lt_size_of_keyUnder hp), hself q (lt_size_of_keyUnder hq)] at hrep
    exact hrep
  · intro h
    rw [count_of_distinct hix h] at htotal
    exact List.length_eq_zero_iff.mp (by omega)

end Classes

/-- No two reachable objects that may be merged have the same key. -/
def Scene.Distinct {K : Type} [Scalar K] (s : Scene K) (settings : OptimizerSettings) : Prop :=
  ∀ a ∈ s.reachable, ∀ b ∈ s.reachable, ∀ o o' k, s.get? a = some o → s.get? b = some o' →
    o.isEligible settings = true → o'.isEligible settings = true →
    o.mergeKey? id = some k → o'.mergeKey? id = some k → a = b

namespace Merge

variable {K : Type} [Scalar K] {s : Scene K} {ix : Index} {settings : OptimizerSettings}

/-- Keeping everything apart is a congruence exactly if no two objects have one key. -/
theorem isCongruence_bot_iff (hix : Index.Sound s ix) :
    IsCongruence s ix settings ⊥ ↔ s.Distinct settings := by
  -- under equality no id is renamed, so keys are those of the objects as they are
  have hkey : ∀ p k, keyUnder s ix settings ⊥ p = some k ↔ ∃ a o, ix.ids[p]? = some a ∧
      s.get? a = some o ∧ o.isEligible settings = true ∧ o.mergeKey? id = some k := by
    intro p k
    constructor
    · intro h
      obtain ⟨o, ho, heligible, hk⟩ := exists_object_of_keyUnder h
      obtain ⟨a, ha, hget⟩ := Option.bind_eq_some_iff.mp ho
      rw [Classes.classId_bot] at hk
      exact ⟨a, o, ha, hget, heligible, hk⟩
    · rintro ⟨a, o, ha, hget, heligible, hk⟩
      simp [keyUnder, objectAt?, ha, hget, heligible, Classes.classId_bot, hk]
  constructor
  · intro h a ha b hb o o' k hget hget' heligible heligible' hk hk'
    have hposa := Index.Sound.getElem?_idxOf (hix.mem_ids_iff.mpr ha)
    have hposb := Index.Sound.getElem?_idxOf (hix.mem_ids_iff.mpr hb)
    have hsame : ix.ids.idxOf a = ix.ids.idxOf b :=
      h _ _ k ((hkey _ k).mpr ⟨a, o, hposa, hget, heligible, hk⟩)
        ((hkey _ k).mpr ⟨b, o', hposb, hget', heligible', hk'⟩)
    rw [hsame, hposb] at hposa
    exact (Option.some.inj hposa).symm
  · intro h p q k hp hq
    obtain ⟨a, o, ha, hget, heligible, hk⟩ := (hkey p k).mp hp
    obtain ⟨b, o', hb, hget', heligible', hk'⟩ := (hkey q k).mp hq
    have hab : a = b := h a (hix.mem_ids_iff.mp (List.mem_of_getElem? ha)) b
      (hix.mem_ids_iff.mp (List.mem_of_getElem? hb)) o o' k hget hget' heligible heligible' hk hk'
    have hpa := Index.position?_of_getElem? hix.nodup ha
    have hqb := Index.position?_of_getElem? hix.nodup hb
    rw [hab, hqb] at hpa
    exact (Option.some.inj hpa).symm

end Merge
end Diorama
