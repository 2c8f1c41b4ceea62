/-
  The whole reduction.

  Dead containers are dropped and transforms are folded once.  Then matrices are pushed down and
  containers spliced, in turn, until neither does anything: a splice can make a container single,
  and a push leaves one with nothing set.

  Seen as a tree, in which a shared object stands once for every path to it, a scene loses a node
  with every splice, and a push moves a matrix to smaller subtrees.  So the number of rounds is
  bounded by the number of nodes of that tree, and `roundLimit` is well above that for every scene
  without cycles.
-/
import Diorama.Reduction.DeadContainers
import Diorama.Reduction.PushDown
import Diorama.Reduction.Splice

namespace Diorama.Reduction

variable {K : Type} [Scalar K]

/-- One round of pushing down and splicing. -/
def coalesce : Editing K Reduction := do
  let pushed ← pushDown
  let spliced ← splice
  return pushed + spliced

/-- Rounds until one does nothing, `limit` at most. -/
def coalesceFor : Nat → Editing K Reduction
  | 0 => throw (.inconsistent "the reduction does not settle")
  | limit + 1 => do
    let round ← coalesce
    if round.total = 0 then return {}
    else return round + (← coalesceFor limit)

/-- More rounds than a scene without cycles needs. -/
def roundLimit (s : Scene K) : Nat :=
  Nat.pow (Nat.pow (s.childCount + 2) (s.size + 1) + 2) 3

/-- Drops, folds, pushes down and splices until nothing is left to do. -/
def reduce : Editing K Reduction := do
  let dropped ← removeDead
  let folded ← foldTransforms
  let coalesced ← coalesceFor (roundLimit (← get))
  return dropped + folded + coalesced

end Diorama.Reduction
