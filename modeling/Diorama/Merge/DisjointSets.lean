/-
  Disjoint sets of positions.

  A forest over `0 .. n-1` in which every position points to one that is not larger, and the roots
  point to themselves.  So the root of a position is the least position of its set, and climbing to
  it goes down in the numbers and ends.  The invariant is part of the type.

    * `root`    climbs to the root
    * `find`    also points everything on the way straight at the root
    * `union`   joins two sets under the smaller root, and says whether they were apart
    * `flatten` finds the root of every position
-/

namespace Diorama

/-- A forest in which no position points to a larger one. -/
structure DisjointSets where
  parent : Array Nat
  parent_le : ∀ x (h : x < parent.size), parent[x] ≤ x

namespace DisjointSets

/-- Every position in a set of its own. -/
def singletons (n : Nat) : DisjointSets where
  parent := Array.range n
  parent_le x h := by simp

/-- The number of positions. -/
def size (d : DisjointSets) : Nat := d.parent.size

/-- The root of the set that holds a position. -/
def root (d : DisjointSets) (x : Nat) : Nat :=
  if h : x < d.parent.size then
    if hx : d.parent[x] = x then x else d.root d.parent[x]
  else x
termination_by x
decreasing_by
  have := d.parent_le x h
  omega

/-- Points a position at another one that is not larger. -/
def attach (d : DisjointSets) (x r : Nat) : DisjointSets :=
  if hr : r ≤ x then
    { parent := d.parent.setIfInBounds x r
      parent_le := by
        intro y hy
        rw [Array.size_setIfInBounds] at hy
        rw [Array.getElem_setIfInBounds hy]
        split
        · omega
        · exact d.parent_le y hy }
  else d

@[simp] theorem size_attach (d : DisjointSets) (x r : Nat) :
    (d.attach x r).size = d.size := by
  unfold attach
  split
  · simp [size]
  · rfl

/-- Points everything from a position up to the root `r` straight at `r`. -/
def compress (d : DisjointSets) (x r : Nat) : DisjointSets :=
  if h : x < d.parent.size then
    if d.parent[x] = r then d
    else if hx : d.parent[x] < x then (d.attach x r).compress d.parent[x] r
    else d
  else d
termination_by x

/-- The root of a position, and the forest with the way to it shortened. -/
def find (d : DisjointSets) (x : Nat) : Nat × DisjointSets :=
  let r := d.root x
  (r, d.compress x r)

/-- Joins the sets of two positions; `true` if they were apart. -/
def union (d : DisjointSets) (a b : Nat) : Bool × DisjointSets :=
  let (ra, d) := d.find a
  let (rb, d) := d.find b
  if ra = rb then (false, d) else (true, d.attach (max ra rb) (min ra rb))

/-- The roots of some positions, one after the other. -/
def findAll (d : DisjointSets) : List Nat → List Nat × DisjointSets
  | [] => ([], d)
  | x :: xs =>
    let (r, d) := d.find x
    let (rs, d) := d.findAll xs
    (r :: rs, d)

/-- The root of every position. -/
def flatten (d : DisjointSets) : List Nat × DisjointSets := d.findAll (List.range d.size)

/-- The number of sets. -/
def count (d : DisjointSets) : Nat :=
  (List.range d.size).countP fun x => d.parent[x]? = some x

end DisjointSets
end Diorama
