/-
  Affine transforms as matrices.

  A point is a row vector and a transform multiplies it from the right, so `A.andThen B` applies `A`
  first.  Flat pictures use `Matrix3x2` (a linear part and a shift), visuals in space use
  `Matrix4x4`, and `Matrix4x4.flatten` is what a flat target sees of the latter.

  Every sum is taken from left to right: with scalars that round, the order of the terms is part of
  the result.
-/
import Diorama.Vector

namespace Diorama

/-- An affine transform of the plane: `(x, y)` goes to
`(x * m11 + y * m21 + m31, x * m12 + y * m22 + m32)`. -/
structure Matrix3x2 (K : Type) where
  m11 : K
  m12 : K
  m21 : K
  m22 : K
  m31 : K
  m32 : K
deriving BEq, DecidableEq

/-- A transform of space in homogeneous coordinates, by rows. -/
structure Matrix4x4 (K : Type) where
  row1 : Vec4 K
  row2 : Vec4 K
  row3 : Vec4 K
  row4 : Vec4 K
deriving BEq, DecidableEq

namespace Matrix3x2

variable {K L : Type}

def map (f : K → L) (m : Matrix3x2 K) : Matrix3x2 L :=
  ⟨f m.m11, f m.m12, f m.m21, f m.m22, f m.m31, f m.m32⟩

def toList (m : Matrix3x2 K) : List K := [m.m11, m.m12, m.m21, m.m22, m.m31, m.m32]

variable [Scalar K]

def identity : Matrix3x2 K := ⟨1, 0, 0, 1, 0, 0⟩

def shift (v : Vec2 K) : Matrix3x2 K := ⟨1, 0, 0, 1, v.x, v.y⟩

def scale (v : Vec2 K) : Matrix3x2 K := ⟨v.x, 0, 0, v.y, 0, 0⟩

/-- Clockwise rotation on a screen, whose vertical axis points down. -/
def rotation (degrees : K) : Matrix3x2 K :=
  ⟨Scalar.cos degrees, Scalar.sin degrees, -Scalar.sin degrees, Scalar.cos degrees, 0, 0⟩

/-- The transform that applies `a`, then `b`. -/
def andThen (a b : Matrix3x2 K) : Matrix3x2 K where
  m11 := a.m11 * b.m11 + a.m12 * b.m21
  m12 := a.m11 * b.m12 + a.m12 * b.m22
  m21 := a.m21 * b.m11 + a.m22 * b.m21
  m22 := a.m21 * b.m12 + a.m22 * b.m22
  m31 := a.m31 * b.m11 + a.m32 * b.m21 + b.m31
  m32 := a.m31 * b.m12 + a.m32 * b.m22 + b.m32

/-- Where the transform takes a point. -/
def apply (m : Matrix3x2 K) (p : Vec2 K) : Vec2 K :=
  ⟨p.x * m.m11 + p.y * m.m21 + m.m31, p.x * m.m12 + p.y * m.m22 + m.m32⟩

def isIdentity (m : Matrix3x2 K) : Bool := m == identity

/-- Entry by entry no further apart than `tolerance`. -/
def isNear (m n : Matrix3x2 K) (tolerance : K) : Bool :=
  (m.toList.zip n.toList).all fun p => decide (Scalar.magnitude (p.1 - p.2) ≤ tolerance)

end Matrix3x2

namespace Matrix4x4

variable {K L : Type}

def map (f : K → L) (m : Matrix4x4 K) : Matrix4x4 L :=
  ⟨m.row1.map f, m.row2.map f, m.row3.map f, m.row4.map f⟩

def toList (m : Matrix4x4 K) : List K :=
  m.row1.toList ++ m.row2.toList ++ m.row3.toList ++ m.row4.toList

variable [Scalar K]

def identity : Matrix4x4 K := ⟨⟨1, 0, 0, 0⟩, ⟨0, 1, 0, 0⟩, ⟨0, 0, 1, 0⟩, ⟨0, 0, 0, 1⟩⟩

def shift (v : Vec3 K) : Matrix4x4 K :=
  ⟨⟨1, 0, 0, 0⟩, ⟨0, 1, 0, 0⟩, ⟨0, 0, 1, 0⟩, ⟨v.x, v.y, v.z, 1⟩⟩

def scale (v : Vec3 K) : Matrix4x4 K :=
  ⟨⟨v.x, 0, 0, 0⟩, ⟨0, v.y, 0, 0⟩, ⟨0, 0, v.z, 0⟩, ⟨0, 0, 0, 1⟩⟩

/-- Rotation about the depth axis. -/
def rotation (degrees : K) : Matrix4x4 K :=
  ⟨⟨Scalar.cos degrees, Scalar.sin degrees, 0, 0⟩,
    ⟨-Scalar.sin degrees, Scalar.cos degrees, 0, 0⟩, ⟨0, 0, 1, 0⟩, ⟨0, 0, 0, 1⟩⟩

/-- A row vector times a matrix. -/
def applyRow (v : Vec4 K) (m : Matrix4x4 K) : Vec4 K where
  x := v.x * m.row1.x + v.y * m.row2.x + v.z * m.row3.x + v.w * m.row4.x
  y := v.x * m.row1.y + v.y * m.row2.y + v.z * m.row3.y + v.w * m.row4.y
  z := v.x * m.row1.z + v.y * m.row2.z + v.z * m.row3.z + v.w * m.row4.z
  w := v.x * m.row1.w + v.y * m.row2.w + v.z * m.row3.w + v.w * m.row4.w

/-- The transform that applies `a`, then `b`. -/
def andThen (a b : Matrix4x4 K) : Matrix4x4 K :=
  ⟨applyRow a.row1 b, applyRow a.row2 b, applyRow a.row3 b, applyRow a.row4 b⟩

/-- The plane part of the transform: the first two rows and columns, and the shift. -/
def flatten (m : Matrix4x4 K) : Matrix3x2 K :=
  ⟨m.row1.x, m.row1.y, m.row2.x, m.row2.y, m.row4.x, m.row4.y⟩

def isIdentity (m : Matrix4x4 K) : Bool := m == identity

end Matrix4x4
end Diorama
