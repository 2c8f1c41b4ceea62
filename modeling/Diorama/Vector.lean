/-
  Vectors.

  Points, sizes and factors with two, three or four components.  `map` changes the scalars of a
  vector and `lerp` goes from one vector to another component by component.
-/
import Diorama.Scalar

namespace Diorama

/-- Two components. -/
structure Vec2 (K : Type) where
  x : K
  y : K
deriving BEq, DecidableEq

/-- Three components. -/
structure Vec3 (K : Type) where
  x : K
  y : K
  z : K
deriving BEq, DecidableEq

/-- Four components. -/
structure Vec4 (K : Type) where
  x : K
  y : K
  z : K
  w : K
deriving BEq, DecidableEq

namespace Vec2

variable {K L : Type}

def map (f : K → L) (v : Vec2 K) : Vec2 L := ⟨f v.x, f v.y⟩

def toList (v : Vec2 K) : List K := [v.x, v.y]

/-- The vector with every component `0`. -/
def zero [Scalar K] : Vec2 K := ⟨0, 0⟩

/-- The vector with every component `1`. -/
def one [Scalar K] : Vec2 K := ⟨1, 1⟩

def lerp [Scalar K] (v w : Vec2 K) (t : K) : Vec2 K :=
  ⟨Scalar.lerp v.x w.x t, Scalar.lerp v.y w.y t⟩

end Vec2

namespace Vec3

variable {K L : Type}

def map (f : K → L) (v : Vec3 K) : Vec3 L := ⟨f v.x, f v.y, f v.z⟩

def toList (v : Vec3 K) : List K := [v.x, v.y, v.z]

/-- The vector with every component `0`. -/
def zero [Scalar K] : Vec3 K := ⟨0, 0, 0⟩

/-- The vector with every component `1`. -/
def one [Scalar K] : Vec3 K := ⟨1, 1, 1⟩

def lerp [Scalar K] (v w : Vec3 K) (t : K) : Vec3 K :=
  ⟨Scalar.lerp v.x w.x t, Scalar.lerp v.y w.y t, Scalar.lerp v.z w.z t⟩

end Vec3

namespace Vec4

variable {K L : Type}

def map (f : K → L) (v : Vec4 K) : Vec4 L := ⟨f v.x, f v.y, f v.z, f v.w⟩

def toList (v : Vec4 K) : List K := [v.x, v.y, v.z, v.w]

def lerp [Scalar K] (v w : Vec4 K) (t : K) : Vec4 K :=
  ⟨Scalar.lerp v.x w.x t, Scalar.lerp v.y w.y t, Scalar.lerp v.z w.z t, Scalar.lerp v.w w.w t⟩

end Vec4
end Diorama
