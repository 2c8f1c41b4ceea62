/-
  Local transforms.

  The settings of a shape or a visual amount to one matrix: move the centre point to the origin,
  scale, rotate, move the centre point back, move by the offset, and apply the matrix.  What is not
  set has its default value.
-/
import Diorama.Object.Content

namespace Diorama

variable {K : Type} [Scalar K]

/-- The settings of a shape as one matrix. -/
def ShapeTransform.toMatrix (t : ShapeTransform K) : Matrix3x2 K :=
  let center := t.centerPoint.getD .zero
  Matrix3x2.shift (center.map (-·))
    |>.andThen (.scale (t.scale.getD .one))
    |>.andThen (.rotation (t.rotation.getD 0))
    |>.andThen (.shift center)
    |>.andThen (.shift (t.offset.getD .zero))
    |>.andThen (t.matrix.getD .identity)

/-- The settings of a visual as one matrix. -/
def Visual.toMatrix (v : Visual K) : Matrix4x4 K :=
  let center := v.centerPoint.getD .zero
  Matrix4x4.shift (center.map (-·))
    |>.andThen (.scale (v.scale.getD .one))
    |>.andThen (.rotation (v.rotation.getD 0))
    |>.andThen (.shift center)
    |>.andThen (.shift (v.offset.getD .zero))
    |>.andThen (v.matrix.getD .identity)

end Diorama
