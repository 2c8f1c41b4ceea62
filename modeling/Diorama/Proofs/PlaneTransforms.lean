/-
  What the plane sees of space.

  A visual is placed by a matrix of space and drawn on the plane, and a shape is placed by a matrix
  of the plane.  The two chains of settings are written apart.  They say the same as long as depth
  stays out of sight: a transform is level if it takes the depth axis to itself and leaves the
  homogeneous coordinate alone.  Level transforms are closed under composition, and on them
  `Matrix4x4.flatten` is a homomorphism, so a chain of them can be flattened link by link.

  All of this holds over any commutative ring, whatever sine and cosine are.  Over one, matrices
  compose as transforms do: the identity is neutral, composition is associative, and points go
  through one matrix after the other.
-/
import Mathlib.Data.BitVec
import Mathlib.Tactic.Ring
import Diorama.Object.Transform
import Diorama.Proofs.WordScalars

namespace Diorama

/-- Scalars whose arithmetic is that of a commutative ring. -/
class RingScalar (K : Type) extends CommRing K, Scalar K

/-- Words that wrap around are a commutative ring. -/
instance RingScalar.instWord : RingScalar (BitVec 32) where
  __ := (inferInstance : CommRing (BitVec 32))
  __ := Scalar.instWord

/-- The part of a vector on the plane. -/
def Vec3.plane {K : Type} (v : Vec3 K) : Vec2 K := ⟨v.x, v.y⟩

/-- A transform of the plane as one of space that stretches depth. -/
def Matrix3x2.inSpace {K : Type} [Scalar K] (depth : K) (m : Matrix3x2 K) : Matrix4x4 K :=
  ⟨⟨m.m11, m.m12, 0, 0⟩, ⟨m.m21, m.m22, 0, 0⟩, ⟨0, 0, depth, 0⟩, ⟨m.m31, m.m32, 0, 1⟩⟩

variable {K : Type} [RingScalar K]

/-! ## Composition -/

namespace Matrix3x2

theorem identity_andThen (m : Matrix3x2 K) : identity.andThen m = m := by
  simp [identity, andThen]

/-- Composition is associative, as six identities of the ring. -/
theorem andThen_assoc (a b c : Matrix3x2 K) :
    (a.andThen b).andThen c = a.andThen (b.andThen c) := by
  simp only [andThen, mk.injEq]
  refine ⟨?_, ?_, ?_, ?_, ?_, ?_⟩ <;> ring

/-- The identity moves no point. -/
theorem apply_identity (p : Vec2 K) : identity.apply p = p := by
  simp [identity, apply]

/-- Points go through one matrix and then through the other. -/
theorem apply_andThen (a b : Matrix3x2 K) (p : Vec2 K) :
    (a.andThen b).apply p = b.apply (a.apply p) := by
  simp only [andThen, apply, Vec2.mk.injEq]
  constructor <;> ring

end Matrix3x2

/-! ## Level transforms -/

namespace Matrix4x4

theorem identity_andThen (m : Matrix4x4 K) : identity.andThen m = m := by
  simp [identity, andThen, applyRow]

/-- Depth does not show on the plane, and points of the plane stay points. -/
structure IsLevel (m : Matrix4x4 K) : Prop where
  row3x : m.row3.x = 0
  row3y : m.row3.y = 0
  row1w : m.row1.w = 0
  row2w : m.row2.w = 0
  row3w : m.row3.w = 0
  row4w : m.row4.w = 1

/-- The settings of a visual that leave depth alone are level, one by one. -/
theorem isLevel_identity : (identity : Matrix4x4 K).IsLevel := ⟨rfl, rfl, rfl, rfl, rfl, rfl⟩

theorem isLevel_shift (v : Vec3 K) : (shift v).IsLevel := ⟨rfl, rfl, rfl, rfl, rfl, rfl⟩

theorem isLevel_scale (v : Vec3 K) : (scale v).IsLevel := ⟨rfl, rfl, rfl, rfl, rfl, rfl⟩

/-- A rotation about the depth axis keeps the axis. -/
theorem isLevel_rotation (degrees : K) : (rotation degrees).IsLevel :=
  ⟨rfl, rfl, rfl, rfl, rfl, rfl⟩

/-- A transform of the plane is level whatever it does to depth. -/
theorem isLevel_inSpace (depth : K) (m : Matrix3x2 K) : (m.inSpace depth).IsLevel :=
  ⟨rfl, rfl, rfl, rfl, rfl, rfl⟩

/-- **Level transforms compose to level ones.** -/
theorem IsLevel.andThen {a b : Matrix4x4 K} (ha : a.IsLevel) (hb : b.IsLevel) :
    (a.andThen b).IsLevel := by
  constructor <;>
    simp [Matrix4x4.andThen, applyRow, ha.row3x, ha.row3y, ha.row1w, ha.row2w, ha.row3w, ha.row4w,
      hb.row3x, hb.row3y, hb.row1w, hb.row2w, hb.row3w, hb.row4w]

/-- **Level transforms are flattened one by one.**  The first has no part in the homogeneous
coordinate to hand on, and the second brings no depth back. -/
theorem IsLevel.flatten_andThen {a b : Matrix4x4 K} (ha : a.IsLevel) (hb : b.IsLevel) :
    (a.andThen b).flatten = a.flatten.andThen b.flatten := by
  simp [flatten, Matrix4x4.andThen, Matrix3x2.andThen, applyRow, ha.row1w, ha.row2w, ha.row4w,
    hb.row3x, hb.row3y]

/-- Flattened, each setting of a visual is the setting of a shape on the plane. -/
theorem flatten_shift (v : Vec3 K) : (shift v).flatten = .shift v.plane := rfl

theorem flatten_scale (v : Vec3 K) : (scale v).flatten = .scale v.plane := rfl

theorem flatten_rotation (degrees : K) : (rotation degrees).flatten = .rotation degrees := rfl

/-- Flattening takes a transform of the plane back from space. -/
theorem flatten_inSpace (depth : K) (m : Matrix3x2 K) : (m.inSpace depth).flatten = m := rfl

end Matrix4x4

/-! ## Visuals and shapes -/

/-- A setting on the plane; one that is unset has its default there. -/
theorem Vec3.plane_getD {L : Type} (v : Option (Vec3 L)) (d : Vec3 L) :
    (v.getD d).plane = (v.map plane).getD d.plane := by
  cases v <;> rfl

open Matrix4x4 in
/-- **A visual is seen where a shape with its settings would be.**  Its matrix may be unset, or any
matrix of the plane with any stretch of depth; the depths of the centre point, the offset and the
scale may be anything. -/
theorem Visual.flatten_toMatrix (v : Visual K) (matrix : Option (Matrix3x2 K)) (depth : K)
    (hmatrix : v.matrix = matrix.map (·.inSpace depth)) :
    v.toMatrix.flatten = ShapeTransform.toMatrix {
      centerPoint := v.centerPoint.map Vec3.plane
      offset := v.offset.map Vec3.plane
      scale := v.scale.map Vec3.plane
      rotation := v.rotation
      matrix } := by
  have hlast : (v.matrix.getD .identity).IsLevel ∧
      (v.matrix.getD .identity).flatten = matrix.getD .identity := by
    rw [hmatrix]
    cases matrix with
    | none => exact ⟨isLevel_identity, rfl⟩
    | some m => exact ⟨isLevel_inSpace depth m, flatten_inSpace depth m⟩
  -- the chain is level up to each of its links
  have hscaled := (isLevel_shift ((v.centerPoint.getD .zero).map (-·))).andThen
    (isLevel_scale (v.scale.getD .one))
  have hrotated := hscaled.andThen (isLevel_rotation (v.rotation.getD 0))
  have hback := hrotated.andThen (isLevel_shift (v.centerPoint.getD .zero))
  have hmoved := hback.andThen (isLevel_shift (v.offset.getD .zero))
  rw [toMatrix, hmoved.flatten_andThen hlast.1, hback.flatten_andThen (isLevel_shift _),
    hrotated.flatten_andThen (isLevel_shift _), hscaled.flatten_andThen (isLevel_rotation _),
    (isLevel_shift _).flatten_andThen (isLevel_scale _), hlast.2]
  have haway : ((v.centerPoint.getD .zero).map (-·)).plane =
      ((v.centerPoint.getD .zero).plane).map (-·) := rfl
  simp only [flatten_shift, flatten_scale, flatten_rotation, haway, Vec3.plane_getD]
  rfl

/-- A visual with depth in everything that places it. -/
def Visual.leaning : Visual (BitVec 32) where
  centerPoint := some ⟨1, 2, 50⟩
  offset := some ⟨10, 20, 60⟩
  scale := some ⟨2, 3, 70⟩
  rotation := some 90
  matrix := some ⟨⟨1, 4, 0, 0⟩, ⟨0, 1, 0, 0⟩, ⟨0, 0, 80, 0⟩, ⟨5, 6, 0, 1⟩⟩

/-- A visual with all settings at once, flattened. -/
theorem Visual.leaning_flatten :
    leaning.matrix = some (Matrix3x2.inSpace 80 ⟨1, 4, 0, 1, 5, 6⟩) ∧
    leaning.toMatrix.flatten =
      ({ centerPoint := some ⟨1, 2⟩, offset := some ⟨10, 20⟩, scale := some ⟨2, 3⟩
         rotation := some 90, matrix := some ⟨1, 4, 0, 1, 5, 6⟩ } :
        ShapeTransform (BitVec 32)).toMatrix ∧
    leaning.toMatrix.flatten = ⟨0, 2, -3, -12, 22, 94⟩ := by
  have hmatrix : leaning.matrix = some (Matrix3x2.inSpace 80 ⟨1, 4, 0, 1, 5, 6⟩) := rfl
  have hflat : leaning.toMatrix.flatten = ⟨0, 2, -3, -12, 22, 94⟩ := by decide +kernel
  exact ⟨hmatrix, leaning.flatten_toMatrix (some ⟨1, 4, 0, 1, 5, 6⟩) 80 hmatrix, hflat⟩

end Diorama
