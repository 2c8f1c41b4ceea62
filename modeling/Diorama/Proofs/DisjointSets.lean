/-
  Disjoint sets, seen through their roots.

  Everything that is known about a forest from outside is its function `root`: two positions are in
  one set when their roots are equal, and the root is the least position of the set.  So every
  operation has one equation that says what it does to the roots:

    * `root_find`     finding changes no root, whatever it does to the parents
    * `root_union`    joining gives both sets the smaller of their roots, and keeps all others
    * `flatten_fst`   flattening lists the roots
    * `count_eq`      the number of sets is the number of positions that are their own roots

  All of them rest on `root_attach`, which covers both ways in which a parent is ever changed: a
  position is pointed straight at its root, or a root is pointed at a smaller root.
-/
import Diorama.Merge.DisjointSets
import Diorama.Scene.Traversal

namespace Diorama.DisjointSets

variable (d : DisjointSets)

/-! ## Roots -/

/-- What is outside the forest is its own root. -/
theorem root_of_size_le {x : Nat} (h : d.size ≤ x) : d.root x = x := by
  have hge : ¬ x < d.parent.size := Nat.not_lt.mpr h
  rw [root, dif_neg hge]

/-- An element that is its own parent is a root. -/
theorem root_of_parent_eq {x : Nat} (h : x < d.parent.size) (hx : d.parent[x] = x) :
    d.root x = x := by
  rw [root, dif_pos h, dif_pos hx]

/-- An element and its parent have one root. -/
theorem root_parent {x : Nat} (h : x < d.parent.size) : d.root d.parent[x] = d.root x := by
  by_cases hx : d.parent[x] = x
  · rw [hx]
  · conv => rhs; rw [root, dif_pos h, dif_neg hx]

/-- Parents are never greater, so roots are not either. -/
theorem root_le (x : Nat) : d.root x ≤ x := by
  induction x using Nat.strongRecOn with
  | ind x ih =>
    by_cases h : x < d.parent.size
    · by_cases hx : d.parent[x] = x
      · exact Nat.le_of_eq (d.root_of_parent_eq h hx)
      · have hle := d.parent_le x h
        have := ih d.parent[x] (by omega)
        rw [d.root_parent h] at this
        omega
    · exact Nat.le_of_eq (d.root_of_size_le (Nat.not_lt.mp h))

/-- A root is its own root. -/
@[simp] theorem root_root (x : Nat) : d.root (d.root x) = d.root x := by
  induction x using Nat.strongRecOn with
  | ind x ih =>
    by_cases h : x < d.parent.size
    · by_cases hx : d.parent[x] = x
      · rw [d.root_of_parent_eq h hx, d.root_of_parent_eq h hx]
      · have hle := d.parent_le x h
        rw [← d.root_parent h]
        exact ih d.parent[x] (by omega)
    · rw [d.root_of_size_le (Nat.not_lt.mp h), d.root_of_size_le (Nat.not_lt.mp h)]

/-- Among the positions, those that are their own parents are their own roots. -/
theorem parent_eq_iff {x : Nat} (h : x < d.parent.size) : d.parent[x] = x ↔ d.root x = x := by
  refine ⟨d.root_of_parent_eq h, fun hroot => ?_⟩
  have hle := d.parent_le x h
  have hroot' := d.root_le d.parent[x]
  rw [d.root_parent h, hroot] at hroot'
  omega

/-- The root of an element of the forest is in the forest. -/
theorem root_lt_size {x : Nat} (h : x < d.size) : d.root x < d.size :=
  Nat.lt_of_le_of_lt (d.root_le x) h

@[simp] theorem size_singletons (n : Nat) : (singletons n).size = n := by
  simp [singletons, size]

/-- In the beginning every element is a root. -/
@[simp] theorem root_singletons (n x : Nat) : (singletons n).root x = x := by
  by_cases h : x < (singletons n).parent.size
  · exact root_of_parent_eq _ h (by simp [singletons])
  · exact root_of_size_le _ (Nat.not_lt.mp h)

/-! ## Changing a parent -/

/-- One parent is changed, and the others stay. -/
theorem parent_attach {x r y : Nat} (hrx : r ≤ x) (h : y < (d.attach x r).parent.size)
    (h' : y < d.parent.size) : (d.attach x r).parent[y] = if x = y then r else d.parent[y] := by
  have hattach : (d.attach x r).parent = d.parent.setIfInBounds x r := by
    simp [attach, hrx]
  simp only [hattach, Array.getElem_setIfInBounds h']

/-- **The one change of a parent.**  The position is pointed at a root that is its own, or it is a
root itself: then its set goes over to the new root, and everything else stays. -/
theorem root_attach {x r : Nat} (hx : x < d.size) (hrx : r ≤ x) (hr : d.root r = r)
    (hxr : d.root x = x ∨ d.root x = r) (y : Nat) :
    (d.attach x r).root y = if d.root y = d.root x then r else d.root y := by
  have hsize : (d.attach x r).parent.size = d.parent.size := d.size_attach x r
  -- strong induction on the element, as parents are not greater
  induction y using Nat.strongRecOn with
  | ind y ih =>
    by_cases h : y < d.parent.size
    · have h' : y < (d.attach x r).parent.size := by rwa [hsize]
      have hparent := d.parent_attach hrx h' h
      by_cases hyx : x = y
      · subst hyx
        rw [if_pos rfl] at hparent ⊢
        rcases Nat.lt_or_eq_of_le hrx with hlt | heq
        · -- the new parent is a root below, and keeps being one
          have := ih r hlt
          rw [← root_parent _ h', hparent, this, hr]
          split <;> rfl
        · rw [root_of_parent_eq _ h' (by rw [hparent, heq]), heq]
      · rw [if_neg hyx] at hparent
        by_cases hy : d.parent[y] = y
        · rw [root_of_parent_eq _ h' (by rw [hparent, hy]), d.root_of_parent_eq h hy]
          rcases hxr with hxr | hxr
          · rw [hxr, if_neg (Ne.symm hyx)]
          · rw [hxr]
            split
            · assumption
            · rfl
        -- above the root, the parent is smaller and keeps its place
        · have hle := d.parent_le y h
          have := ih d.parent[y] (by omega)
          rwa [← root_parent _ h', hparent, ← d.root_parent h]
    · have hge : d.size ≤ y := Nat.not_lt.mp h
      have hge' : (d.attach x r).size ≤ y := by rwa [d.size_attach]
      have hne : y ≠ d.root x := by
        have := d.root_lt_size hx
        omega
      rw [root_of_size_le _ hge', d.root_of_size_le hge, if_neg hne]

/-! ## Finding -/

/-- Compressing a path changes parents only. -/
@[simp] theorem size_compress (x r : Nat) : (d.compress x r).size = d.size := by
  fun_induction compress d x r with
  | case1 => rfl
  | case2 d x h hne hlt ih => rw [ih, size_attach]
  | case3 => rfl
  | case4 => rfl

/-- A position may be pointed straight at its root. -/
theorem root_attach_root {x : Nat} (h : x < d.size) (y : Nat) :
    (d.attach x (d.root x)).root y = d.root y := by
  rw [d.root_attach h (d.root_le x) (d.root_root x) (Or.inr rfl) y]
  split
  · exact Eq.symm ‹_›
  · rfl

/-- Every element on a path is attached to the root it had, so compressing changes no root. -/
theorem root_compress {x r : Nat} (hr : d.root x = r) (y : Nat) :
    (d.compress x r).root y = d.root y := by
  fun_induction compress d x r with
  | case1 => rfl
  | case2 d x h hne hlt ih =>
    have hsame : ∀ y, (d.attach x r).root y = d.root y := hr ▸ d.root_attach_root h
    rw [ih (by rw [hsame, d.root_parent h, hr]), hsame]
  | case3 => rfl
  | case4 => rfl

/-- Finding gives the root. -/
@[simp] theorem find_fst (x : Nat) : (d.find x).1 = d.root x := rfl

@[simp] theorem size_find (x : Nat) : (d.find x).2.size = d.size := d.size_compress x _

/-- Finding compresses a path on the way and changes no root. -/
@[simp] theorem root_find (x y : Nat) : (d.find x).2.root y = d.root y := d.root_compress rfl y

/-! ## Joining -/

/-- A union tells whether the two were apart. -/
@[simp] theorem union_fst (a b : Nat) : (d.union a b).1 = decide (d.root a ≠ d.root b) := by
  have hrb : ((d.find a).2.find b).1 = d.root b := by simp
  simp only [union, hrb, find_fst]
  by_cases h : d.root a = d.root b <;> simp [h]

@[simp] theorem size_union (a b : Nat) : (d.union a b).2.size = d.size := by
  unfold union
  simp only
  split <;> simp

/-- **Joining** gives both sets the smaller of their roots. -/
theorem root_union {a b : Nat} (ha : a < d.size) (hb : b < d.size) (y : Nat) :
    (d.union a b).2.root y =
      if d.root y = d.root a ∨ d.root y = d.root b then min (d.root a) (d.root b)
      else d.root y := by
  have hroots : ∀ y, ((d.find a).2.find b).2.root y = d.root y := by simp
  have hrb : ((d.find a).2.find b).1 = d.root b := by simp
  unfold union
  simp only [hrb, find_fst]
  by_cases h : d.root a = d.root b
  · rw [if_pos h, hroots]
    simp only [h, or_self, Nat.min_self]
    split
    · assumption
    · rfl
  · have hlt : max (d.root a) (d.root b) < ((d.find a).2.find b).2.size := by
      have := d.root_lt_size ha
      have := d.root_lt_size hb
      simp only [size_find]
      omega
    have hmax : d.root (max (d.root a) (d.root b)) = max (d.root a) (d.root b) := by
      rcases Nat.le_total (d.root a) (d.root b) with hle | hle
      · simp [Nat.max_eq_right hle]
      · simp [Nat.max_eq_left hle]
    have hmin : d.root (min (d.root a) (d.root b)) = min (d.root a) (d.root b) := by
      rcases Nat.le_total (d.root a) (d.root b) with hle | hle
      · simp [Nat.min_eq_left hle]
      · simp [Nat.min_eq_right hle]
    rw [if_neg h, root_attach _ hlt (by omega) (by rw [hroots, hmin])
      (Or.inl (by rw [hroots, hmax])) y]
    simp only [hroots, hmax]
    -- of the two roots one is the larger, which moves, and one the smaller, which stays
    split <;> split <;> omega

/-! ## Flattening and counting -/

/-- Elements that are looked up one after the other have the roots they had at the beginning. -/
theorem findAll_fst (xs : List Nat) : (d.findAll xs).1 = xs.map d.root := by
  induction xs generalizing d with
  | nil => rfl
  | cons x xs ih =>
    have hroot : (d.find x).2.root = d.root := funext (d.root_find x)
    simp [findAll, ih, hroot]

theorem flatten_fst : d.flatten.1 = (List.range d.size).map d.root := d.findAll_fst _

/-- The classes are counted by their roots. -/
theorem count_eq : d.count = (List.range d.size).countP fun x => d.root x = x := by
  refine List.countP_congr fun x hx => ?_
  have h : x < d.parent.size := List.mem_range.mp hx
  simp [Array.getElem?_eq_getElem h, d.parent_eq_iff h]

/-- Two sets that become one are one set less. -/
theorem count_union_lt {a b : Nat} (ha : a < d.size) (hb : b < d.size)
    (h : d.root a ≠ d.root b) : (d.union a b).2.count < d.count := by
  have hroot := d.root_union ha hb
  rw [count_eq, count_eq, size_union, List.countP_eq_length_filter, List.countP_eq_length_filter]
  have hra := d.root_root a
  have hrb := d.root_root b
  -- the greater root is lost: it was counted before, and is not counted after
  refine length_filter_lt_length_filter (x := max (d.root a) (d.root b)) ?_ ?_ ?_ ?_
  · intro y hy
    simp only [hroot, decide_eq_true_eq] at hy ⊢
    split at hy
    · rcases Nat.le_total (d.root a) (d.root b) with hle | hle
      · rw [Nat.min_eq_left hle] at hy
        rw [← hy, hra]
      · rw [Nat.min_eq_right hle] at hy
        rw [← hy, hrb]
    · exact hy
  · have := d.root_lt_size ha
    have := d.root_lt_size hb
    exact List.mem_range.mpr (by omega)
  · rcases Nat.le_total (d.root a) (d.root b) with hle | hle
    · simp [Nat.max_eq_right hle]
    · simp [Nat.max_eq_left hle]
  · rcases Nat.le_total (d.root a) (d.root b) with hle | hle
    · simp only [Nat.max_eq_right hle, hroot, hrb, or_true, if_true, decide_eq_false_iff_not]
      omega
    · simp only [Nat.max_eq_left hle, hroot, hra, true_or, if_true, decide_eq_false_iff_not]
      omega

/-- Joining a set with itself changes no root. -/
theorem root_union_of_eq {a b : Nat} (ha : a < d.size) (hb : b < d.size)
    (h : d.root a = d.root b) (y : Nat) : (d.union a b).2.root y = d.root y := by
  rw [d.root_union ha hb, h]
  simp only [or_self, Nat.min_self]
  split
  · exact Eq.symm ‹_›
  · rfl

/-- A union leaves at most as many classes as there were. -/
theorem count_union_le {a b : Nat} (ha : a < d.size) (hb : b < d.size) :
    (d.union a b).2.count ≤ d.count := by
  by_cases h : d.root a = d.root b
  · rw [count_eq, count_eq, size_union]
    simp [d.root_union_of_eq ha hb h]
  · exact Nat.le_of_lt (d.count_union_lt ha hb h)

end Diorama.DisjointSets
