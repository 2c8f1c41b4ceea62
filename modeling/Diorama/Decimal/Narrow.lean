/-
  From double to single precision.

  The nearest number of single precision has the first twenty-four binary places of the double, the
  last one rounded, a tie going to the even one; below the smallest normal number the last place
  stays where it is.  A number past the largest one becomes infinite.
-/
import Diorama.Decimal.Shortest

namespace Diorama.Decimal

/-- The bits of the single-precision number nearest to `mantissa * 2 ^ exponent`. -/
def singleBits (mantissa : Nat) (exponent : Int) : Nat :=
  let last := max (-149) (exponent + mantissa.log2 - 23)
  let units := roundToEven (mantissa * power 2 (exponent - last)) (power 2 (last - exponent))
  -- a full mantissa raises the level by one by itself, and one that was rounded up by two
  min (units + (last + 149).toNat * 0x800000) 0x7F800000

/-- The nearest number of single precision. -/
def narrow (x : Float) : Float32 :=
  let bits := x.toBits.toNat
  let fraction : Nat := bits % 0x10000000000000
  let level : Nat := bits / 0x10000000000000 % 0x800
  let magnitude :=
    if level = 0x7FF then if fraction = 0 then 0x7F800000 else 0x7FC00000
    else if level = 0 then singleBits fraction (-1074)
    else singleBits (fraction + 0x10000000000000) ((level : Int) - 1075)
  .ofBits (.ofNat (if bits < 0x8000000000000000 then magnitude else magnitude + 0x80000000))

end Diorama.Decimal
