/-
  In exact arithmetic a reduction moves nothing.

  Scalars are exact if they are a commutative ring, if what tests equal is equal, and if the
  rotation by zero turns nothing.  Then the settings of a transform that are unset contribute the
  identity, so a matrix that stands for a whole transform amounts to the same, also where it is left
  out because it is the identity.

  That is all that the edits of a reduction ask of places (`Placing.exact`), so a reduced scene
  shows the same samples at the same places.  A visual is folded as a matrix of space and placed as
  one of the plane;  since folding keeps the matrix of space, nothing has to be known about how the
  two kinds compose.
-/
import Mathlib.Data.BitVec
import Mathlib.Tactic.Ring
import Diorama.Proofs.PlaneTransforms
import Diorama.Proofs.ReducedPicture

namespace Diorama

/-- Scalars that compute exactly. -/
class ExactScalar (K : Type) extends RingScalar K where
  eq_of_beq {x y : K} : (x == y) = true → x = y
  sin_zero : Scalar.sin (0 : K) = 0
  cos_zero : Scalar.cos (0 : K) = 1

variable {K : Type} [ExactScalar K]

/-- Words that wrap around are exact. -/
instance ExactScalar.instWord : ExactScalar (BitVec 32) where
  __ := RingScalar.instWord
  eq_of_beq h := of_decide_eq_true h
  sin_zero := by decide
  cos_zero := by decide

/-! ## Matrices of the plane -/

namespace Matrix3x2

/-- Turning by nothing is the identity. -/
theorem rotation_zero : rotation (0 : K) = identity := by
  have hsin : Scalar.sin (0 : K) = 0 := ExactScalar.sin_zero
  have hcos : Scalar.cos (0 : K) = 1 := ExactScalar.cos_zero
  simp [rotation, identity, hsin, hcos]

/-- What tests as the identity is the identity. -/
theorem eq_of_isIdentity {m : Matrix3x2 K} (h : m.isIdentity = true) : m = identity :=
  (like_of_beq ExactScalar.eq_of_beq h).eq

/-- A matrix is left out only if leaving it out amounts to the same. -/
theorem unlessIdentity_getD (m : Matrix3x2 K) : m.unlessIdentity.getD identity = m := by
  unfold unlessIdentity
  split
  · exact (eq_of_isIdentity ‹_›).symm
  · rfl

end Matrix3x2

/-- A transform that sets nothing but a matrix is the matrix. -/
theorem ShapeTransform.toMatrix_matrix (own : Option (Matrix3x2 K)) :
    ShapeTransform.toMatrix { matrix := own } = own.getD .identity := by
  have hback : (Vec2.zero : Vec2 K).map (-·) = .zero := by simp [Vec2.map, Vec2.zero]
  have hshift : Matrix3x2.shift (Vec2.zero : Vec2 K) = .identity := rfl
  have hscale : Matrix3x2.scale (Vec2.one : Vec2 K) = .identity := rfl
  simp only [toMatrix, Option.getD_none, hback, hshift, hscale, Matrix3x2.rotation_zero,
    Matrix3x2.identity_andThen]

/-- A folded transform is one matrix, which stands for the whole. -/
theorem ShapeTransform.toMatrix_fold (t : ShapeTransform K) : t.fold.toMatrix = t.toMatrix := by
  rw [fold, toMatrix_matrix, Matrix3x2.unlessIdentity_getD]

/-- A plain matrix that is followed by another one is the two of them, one after the other. -/
theorem Reduction.toMatrix_followedBy (m : Matrix3x2 K) (own : Option (Matrix3x2 K)) :
    (followedBy m { matrix := own }).toMatrix =
      (ShapeTransform.toMatrix { matrix := own }).andThen m := by
  rw [followedBy, ShapeTransform.toMatrix_matrix, Matrix3x2.unlessIdentity_getD,
    ShapeTransform.toMatrix_matrix]

/-! ## Matrices of space -/

namespace Matrix4x4

theorem rotation_zero : rotation (0 : K) = identity := by
  have hsin : Scalar.sin (0 : K) = 0 := ExactScalar.sin_zero
  have hcos : Scalar.cos (0 : K) = 1 := ExactScalar.cos_zero
  simp [rotation, identity, hsin, hcos]

theorem eq_of_isIdentity {m : Matrix4x4 K} (h : m.isIdentity = true) : m = identity :=
  (like_of_beq ExactScalar.eq_of_beq h).eq

/-- With the identity for a matrix that was left out, every matrix is itself again. -/
theorem unlessIdentity_getD (m : Matrix4x4 K) : m.unlessIdentity.getD identity = m := by
  unfold unlessIdentity
  split
  · exact (eq_of_isIdentity ‹_›).symm
  · rfl

end Matrix4x4

/-- A visual that sets nothing of its transform but a matrix is placed by the matrix. -/
theorem Visual.toMatrix_of_unset {v : Visual K} (hcenter : v.centerPoint = none)
    (hoffset : v.offset = none) (hscale : v.scale = none) (hrotation : v.rotation = none) :
    v.toMatrix = v.matrix.getD .identity := by
  have hback : (Vec3.zero : Vec3 K).map (-·) = .zero := by simp [Vec3.map, Vec3.zero]
  have hshift : Matrix4x4.shift (Vec3.zero : Vec3 K) = .identity := rfl
  have hone : Matrix4x4.scale (Vec3.one : Vec3 K) = .identity := rfl
  simp only [toMatrix, hcenter, hoffset, hscale, hrotation, Option.getD_none, hback, hshift, hone,
    Matrix4x4.rotation_zero, Matrix4x4.identity_andThen]

/-- A folded visual transform is one matrix, which stands for the whole. -/
theorem Visual.toMatrix_fold (v : Visual K) : v.fold.toMatrix = v.toMatrix := by
  have hfold : v.fold.toMatrix = v.toMatrix.unlessIdentity.getD .identity :=
    toMatrix_of_unset rfl rfl rfl rfl
  rw [hfold, Matrix4x4.unlessIdentity_getD]

/-! ## Places -/

open Reduction in
/-- **In exact arithmetic every edit leaves places as they are.** -/
theorem Placing.exact : Placing (Eq : Matrix3x2 K → Matrix3x2 K → Prop) where
  refl _ := rfl
  trans := Eq.trans
  follow m _ _ h := by rw [h]
  fold t _ _ h := by rw [h, t.toMatrix_fold]
  foldVisual v _ _ h := by rw [h, v.toMatrix_fold]
  push m own w w' h := by
    -- the matrix of the container moves from one pair of brackets to the other
    rw [h, toMatrix_followedBy, Matrix3x2.andThen_assoc, ShapeTransform.toMatrix_matrix (some m),
      ShapeTransform.toMatrix_matrix none, Option.getD_some, Option.getD_none,
      Matrix3x2.identity_andThen]
  unset h := by
    rw [h, ShapeTransform.toMatrix_matrix]
    exact Matrix3x2.identity_andThen _
  unsetVisual h := by
    rw [h, Visual.toMatrix_of_unset rfl rfl rfl rfl]
    exact Matrix3x2.identity_andThen _

namespace Reduction

variable {s s' : Scene K} {done : Reduction}

/-- **A reduction moves nothing in exact arithmetic.**  Of every scene that is indexed and reduced,
at every time at which the scene can be sampled the reduced one can, and its samples are the same
one by one, in every field: each sprite is at the same place. -/
theorem reduce_sampleAt_eq {ix : Index} (hix : Index.build s = .ok ix)
    (hreduce : reduce s = .ok done s') {time : Int64} {samples : List (Sample K)}
    (hbefore : s.sampleAt time = .ok samples) : s'.sampleAt time = .ok samples := by
  have hagree := reduce_picture Placing.exact mul_one hix hreduce time
  rw [hbefore] at hagree
  generalize s'.sampleAt time = result at hagree ⊢
  cases hagree with
  | ok hmoved =>
    have hsame := hmoved.imp fun a b hab => show a = b by rw [hab.rest, ← hab.place]
    rw [List.forall₂_eq_eq_eq] at hsame
    rw [hsame]

/-- The sample of the specimen: shifted by the visual after the matrix of the container. -/
def specimenSample : Sample (BitVec 32) where
  transform := ⟨0, 3, -2, 0, 12, 14⟩
  opacity := 1
  geometry := .ellipse ⟨0, 0⟩ ⟨4, 4⟩
  trim := ⟨0, 1, 0⟩
  fill := some (.rgb 255 0 0)
  stroke := some (.rgb 255 0 0)
  strokeThickness := 1
  expressions := []

/-- The specimen shows the same sample before and after. -/
theorem specimenReduced_sampleAt :
    Index.build specimen = .ok specimenIndex ∧
    reduce specimen = .ok ⟨1, 1, 1, 1, 1⟩ specimenReduced ∧
    specimen.sampleAt 0 = .ok [specimenSample] ∧
    specimenReduced.sampleAt 0 = .ok [specimenSample] := by
  have hbefore : specimen.sampleAt 0 = .ok [specimenSample] := by cbv
  exact ⟨specimen_build, specimen_reduce, hbefore,
    reduce_sampleAt_eq specimen_build specimen_reduce hbefore⟩

end Reduction
end Diorama
