/-
  What the optimizer did, as JSON.
-/
import Diorama.Optimizer.Optimize

namespace Diorama

def Reduction.toJson (r : Reduction) : Json :=
  .object [("dead_containers_removed", .ofNat r.deadRemoved),
    ("shape_transforms_folded", .ofNat r.shapesFolded),
    ("visual_transforms_folded", .ofNat r.visualsFolded),
    ("transforms_pushed_down", .ofNat r.pushedDown),
    ("containers_spliced", .ofNat r.spliced)]

/-- Merges under the tags of their kinds. -/
def mergedJson (merged : List (Kind × Nat)) : Json :=
  .object (merged.map fun (kind, n) => (kind.tag, .ofNat n))

def OptimizerReport.toJson (r : OptimizerReport) : Json :=
  .object [("input_objects", .ofNat r.inputObjects),
    ("canonical_objects", .ofNat r.canonicalObjects),
    ("merged", mergedJson r.merged),
    ("reduction", r.reduction.toJson),
    ("output_objects", .ofNat r.outputObjects)]

end Diorama
