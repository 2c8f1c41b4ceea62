/-
  JSON values.

  A value keeps what its text says: the members of an object stand in order and may repeat a name,
  and a number stays the decimal that was written, since a reader may want it as a word of some
  width or as a float.  A number written without point and exponent that fits a 64-bit word is
  `whole`; every other number is `scaled`, and so is `-0`, which no whole number can tell from `0`.
-/
import Diorama.Decimal.Narrow

namespace Diorama

/-- A JSON number. -/
inductive Numeral where
  /-- A whole number of 64 bits. -/
  | whole (n : Int)
  /-- `± significand * 10 ^ exponent`. -/
  | scaled (negative : Bool) (significand : Nat) (exponent : Int)
deriving DecidableEq

/-- A JSON value. -/
inductive Json where
  | null
  | bool (b : Bool)
  | number (n : Numeral)
  | text (s : String)
  | array (items : List Json)
  | object (members : List (String × Json))

/-- Why a text is no value of the wanted type. -/
inductive JsonFault where
  /-- The text ends too early. -/
  | truncated
  /-- The text is not JSON. -/
  | malformed
  /-- The text is JSON, and its value has another shape. -/
  | wrongShape
deriving DecidableEq

namespace Numeral

/-! ## Numbers as floats -/

/-- `x * 10 ^ e` in double precision by one multiplication or division; none where it overflows.
Powers below the smallest normal number are divided off in steps of `10 ^ 308`. -/
def scale (x : Float) (e : Int) : Option Float :=
  if e.natAbs ≤ 308 then
    let power := Float.ofScientific 1 false e.natAbs
    if 0 ≤ e then
      let y := x * power
      if y.isInf then none else some y
    else some (x / power)
  else if x == 0 then some x
  else if 0 ≤ e then none
  else scale (x / 1e308) (e + 308)
termination_by e.natAbs
decreasing_by omega

/-- The number in double precision; none if it is too large. -/
def toDouble? : Numeral → Option Float
  | .whole n => some (if 0 ≤ n then n.toNat.toUInt64.toFloat else (Int64.ofInt n).toFloat)
  | .scaled negative significand exponent =>
    (scale significand.toUInt64.toFloat exponent).map fun x => if negative then -x else x

/-- The number in single precision: a whole number is rounded once, any other one is first read in
double precision. -/
def toSingle : Numeral → Float32
  | .whole n => if 0 ≤ n then n.toNat.toUInt64.toFloat32 else (Int64.ofInt n).toFloat32
  | n => match n.toDouble? with
    | some x => Decimal.narrow x
    | none => 0

/-- The shortest numeral of a finite float, a tie going to the even digit. -/
def ofSingle (x : Float32) : Numeral :=
  let digits := Decimal.shortest (.ofFloat32 x) .toEven
  .scaled (Decimal.isNegative x) digits.significand digits.exponent

end Numeral

namespace Json

/-- A whole number as a value. -/
def ofNat (n : Nat) : Json := .number (.whole n)

/-- A whole number as a value. -/
def ofInt (n : Int) : Json := .number (.whole n)

/-- A float as a value; the values that are no number have no JSON form and become `null`. -/
def ofSingle (x : Float32) : Json :=
  if x.isFinite then .number (.ofSingle x) else .null

end Json
end Diorama
