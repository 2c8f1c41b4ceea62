/-
  Names of the objects of a scene.

  Every reachable object gets a name of its own.  An object whose base name nobody shares has that
  name.  Objects that share one are numbered from 0 in the order of the walk, with as many digits as
  the last of them needs.  Should a name be taken all the same, `_x` is added until it is free.
-/
import Diorama.Naming.BaseName
import Diorama.Scene.Traversal

set_option linter.unusedVariables false

namespace Diorama

/-- Names of objects, in the order in which they were given. -/
structure Names where
  entries : List (ObjectId × String) := []

namespace Names

/-- The name of an object. -/
def get? (names : Names) (id : ObjectId) : Option String := names.entries.lookup id

/-- The base name with the place of an object among `size` objects that share it. -/
def numbered (base : String) (size index : Nat) : String :=
  if 1 < size then
    let digits := index.repr
    let width := (size - 1).repr.length
    base ++ "_" ++ String.ofList (List.replicate (width - digits.length) '0') ++ digits
  else base

/-- The name, with `_x` added until it is not among those used. -/
def fresh (used : List String) (name : String) : String :=
  if h : name ∈ used then fresh used (name ++ "_x") else name
termination_by (used.filter fun u => name.length ≤ u.length).length
decreasing_by
  refine length_filter_lt_length_filter (x := name) ?_ h (by simp) ?_
  · intro u hu
    simp only [decide_eq_true_eq, String.length_append] at hu ⊢
    omega
  · have : "_x".length = 2 := rfl
    simp only [String.length_append, this, decide_eq_false_iff_not]
    omega

/-- Names for objects with the given base names, where `bases` holds those of all objects; objects
with the base names `earlier` have got the names `used`. -/
def assign (bases : List String) :
    List (ObjectId × String) → List String → List String → List (ObjectId × String)
  | [], _, _ => []
  | (id, base) :: rest, earlier, used =>
    let name := fresh used (numbered base (bases.count base) (earlier.count base))
    (id, name) :: assign bases rest (earlier ++ [base]) (used ++ [name])

/-- Names of all reachable objects of a scene. -/
def ofScene (s : Scene Float32) : Names :=
  let based := s.reachable.map fun id => (id, (s.get? id).elim "" Object.baseName)
  ⟨assign (based.map Prod.snd) based [] []⟩

end Names
end Diorama
