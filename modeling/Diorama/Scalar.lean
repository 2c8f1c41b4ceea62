/-
  Scalars.

  Everything a scene measures (lengths, angles, opacities, progress) is a scalar.  The rules of the
  library, from matrices to the sampled picture, are written once over a type `K` of scalars and say
  only which operation is applied where; no law of arithmetic is assumed here.

    * `Scalar K`        the operations: ring operations, comparison, sine and cosine of degrees,
                        rounding to a colour channel, and the word under which two scalars merge
    * `Scalar Float32`  the scalars that scenes are stored in: IEEE single precision

  A statement in exact arithmetic takes a commutative ring whose operations are those of `Scalar`; a
  statement about what is computed takes `Float32`.
-/

namespace Diorama

/-- The operations on scalars that scenes are measured, placed and sampled with. -/
class Scalar (K : Type) extends
    Zero K, One K, Add K, Sub K, Mul K, Neg K, Div K, BEq K, LT K, LE K where
  decidableLT : DecidableLT K
  decidableLE : DecidableLE K
  /-- The scalar nearest to a whole number. -/
  ofInt : Int → K
  /-- Sine of an angle in degrees. -/
  sin : K → K
  /-- Cosine of an angle in degrees. -/
  cos : K → K
  /-- An angle in radians, in degrees. -/
  degrees : K → K
  /-- The largest whole scalar not above the argument. -/
  floor : K → K
  /-- The nearest colour channel: a half goes away from zero, and values outside `0..255` go to
  the nearer end. -/
  toByte : K → UInt8
  /-- The least distance between two key frames that is divided by. -/
  epsilon : K
  /-- How near the search for an eased progress has to come. -/
  tolerance : K
  /-- The word under which two scalars are the same for merging. -/
  word : K → UInt32

instance Scalar.instDecidableLT {K : Type} [Scalar K] : DecidableLT K := Scalar.decidableLT

instance Scalar.instDecidableLE {K : Type} [Scalar K] : DecidableLE K := Scalar.decidableLE

namespace Scalar

variable {K : Type} [Scalar K]

/-- The distance from zero. -/
def magnitude (x : K) : K := if x < 0 then -x else x

/-- The nearest scalar between `lo` and `hi`. -/
def clamp (x lo hi : K) : K :=
  let y := if x < lo then lo else x
  if hi < y then hi else y

/-- The larger of two scalars, `y` where they cannot be compared. -/
def atLeast (x y : K) : K := if y < x then x else y

/-- The scalar a fraction `t` of the way from `a` to `b`. -/
def lerp (a b t : K) : K := a + (b - a) * t

/-- One half. -/
def half : K := 1 / ofInt 2

end Scalar

/-- Single precision.  Angles are turned into radians by one multiplication, and both zeros have
the word `0`, since they look the same in every picture. -/
instance Scalar.instFloat32 : Scalar Float32 where
  zero := 0
  one := 1
  add := Float32.add
  sub := Float32.sub
  mul := Float32.mul
  neg := Float32.neg
  div := Float32.div
  beq := Float32.beq
  lt a b := a < b
  le a b := a ≤ b
  decidableLT a b := Float32.decLt a b
  decidableLE a b := Float32.decLe a b
  ofInt n := (Int64.ofInt n).toFloat32
  sin x := (x * 0.017453292).sin
  cos x := (x * 0.017453292).cos
  degrees x := x * 57.29578
  floor := Float32.floor
  toByte x := x.round.toUInt8
  epsilon := 1.1920929e-7
  tolerance := 1e-6
  word x := if x == 0 then 0 else x.toBits

end Diorama
