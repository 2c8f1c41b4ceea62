/-
  One matrix in place of many settings.

  Where no animation drives any part of a transform, the centre point, offset, scale, rotation and
  matrix of a shape or a visual become the one matrix they amount to, or nothing if that is the
  identity.  Objects that an expression reads keep their settings.
-/
import Diorama.Object.Transform
import Diorama.Reduction.Editing

namespace Diorama

variable {K : Type} [Scalar K]

/-- A matrix that is worth setting. -/
def Matrix3x2.unlessIdentity (m : Matrix3x2 K) : Option (Matrix3x2 K) :=
  if m.isIdentity then none else some m

/-- A matrix that is worth setting. -/
def Matrix4x4.unlessIdentity (m : Matrix4x4 K) : Option (Matrix4x4 K) :=
  if m.isIdentity then none else some m

/-- The same transform as one matrix. -/
def ShapeTransform.fold (t : ShapeTransform K) : ShapeTransform K :=
  { matrix := t.toMatrix.unlessIdentity }

/-- The same visual with its transform as one matrix. -/
def Visual.fold (v : Visual K) : Visual K :=
  { v with
    centerPoint := none
    offset := none
    scale := none
    rotation := none
    matrix := v.toMatrix.unlessIdentity }

namespace Reduction

/-- The content with its transform as one matrix, and what that counts as; nothing if the transform
is a matrix already. -/
def foldContent? : Content K → Option (Content K × Reduction)
  | .containerShape transform shapes =>
    if transform.isSeparate then
      some (.containerShape transform.fold shapes, { shapesFolded := 1 })
    else none
  | .spriteShape sprite =>
    if sprite.transform.isSeparate then
      some (.spriteShape { sprite with transform := sprite.transform.fold }, { shapesFolded := 1 })
    else none
  | .containerVisual visual children =>
    if visual.isSeparate then
      some (.containerVisual visual.fold children, { visualsFolded := 1 })
    else none
  | .shapeVisual visual shapes =>
    if visual.isSeparate then some (.shapeVisual visual.fold shapes, { visualsFolded := 1 })
    else none
  | _ => none

/-- Folds the transform of one object. -/
def foldObject (read : List ObjectId) (id : ObjectId) : Editing K Reduction := do
  if read.contains id then return {}
  let some o := (← get).get? id | return {}
  if o.attached.animatesAny transformProperties then return {}
  match foldContent? o.content with
  | some (content, done) =>
    Editing.change id fun o => { o with content }
    return done
  | none => return {}

/-- Folds every transform that nothing drives or reads. -/
def foldTransforms : Editing K Reduction := do
  let s ← get
  Editing.sumOver (foldObject s.readByExpressions) s.reachable

end Reduction
end Diorama
