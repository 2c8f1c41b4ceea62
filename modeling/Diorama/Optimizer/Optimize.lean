/-
  The optimizer.

  A scene is indexed, its equal objects are merged, one object per class is copied into a new scene,
  and the tree of the copy is reduced.  The given scene stays as it is.
-/
import Diorama.Merge.Copy
import Diorama.Reduction.Settle

namespace Diorama

/-- What a run of the optimizer did. -/
structure OptimizerReport where
  /-- Objects that the given root reaches. -/
  inputObjects : Nat
  /-- Classes of equal objects. -/
  canonicalObjects : Nat
  /-- Merges by kind. -/
  merged : List (Kind × Nat)
  reduction : Reduction
  /-- Objects that the new root reaches. -/
  outputObjects : Nat

/-- A scene with an equal picture, and how it came about. -/
structure Optimized (K : Type) where
  scene : Scene K
  report : OptimizerReport

/-- The scene with equal objects merged and its tree reduced. -/
def Scene.optimize {K : Type} [Scalar K] (s : Scene K) (settings : OptimizerSettings) :
    Except SceneError (Optimized K) := do
  let ix ← Index.build s
  let classes := Classes.ofIndex s ix settings
  let copied ← Merge.copy s ix classes settings
  let (reduction, out) ←
    if settings.keepTree then pure ({}, copied)
    else
      match Reduction.reduce copied with
      | .ok reduction out => pure (reduction, out)
      | .error e _ => throw e
  return {
    scene := out
    report := {
      inputObjects := ix.size
      canonicalObjects := classes.count
      merged := classes.merged
      reduction
      outputObjects := out.reachable.length } }

end Diorama
