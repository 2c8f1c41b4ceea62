/-
  How chosen decimal digits are laid out.

  The digits of a number and where its point stands are one thing (`Digits`), the text is another.
  A `Layout` holds a format's decisions: which of two equally near digits is taken, which numbers
  are written out in full, and what a whole number ends in.

    * `Layout.plain`   never an exponent, nothing after a whole number
    * `places`         a fixed number of decimal places
-/
import Diorama.Decimal.Shortest

namespace Diorama.Decimal

/-- The decisions of a number format. -/
structure Layout where
  tie : Tie
  /-- Whether a number whose first digit has this decimal weight is written out in full. -/
  inFull : Int → Bool
  /-- What follows the last digit of a whole number that is written out in full. -/
  wholeEnd : String

/-- All digits, no exponent, and a whole number without a point. -/
def Layout.plain : Layout := ⟨.upward, fun _ => true, ""⟩

namespace Digits

/-- The digits of the significand, highest first. -/
def text (d : Digits) : List Char := d.significand.repr.toList

/-- The decimal weight of the first digit. -/
def weight (d : Digits) : Int := d.exponent + d.text.length - 1

/-- The number without an exponent. -/
def full (d : Digits) (wholeEnd : String) : String :=
  let digits := d.text
  if 0 ≤ d.exponent then
    String.ofList (digits ++ List.replicate d.exponent.toNat '0') ++ wholeEnd
  else if d.weight < 0 then
    "0." ++ String.ofList (List.replicate (-d.weight - 1).toNat '0' ++ digits)
  else
    let whole := (d.weight + 1).toNat
    String.ofList (digits.take whole) ++ "." ++ String.ofList (digits.drop whole)

/-- One digit, the others behind a point, and an exponent with its sign. -/
def scientific (d : Digits) : String :=
  let digits := d.text
  let rest := digits.drop 1
  let point := if rest.isEmpty then "" else "."
  let sign := if d.weight < 0 then "-" else "+"
  String.ofList (digits.take 1) ++ point ++ String.ofList rest ++ "e" ++ sign ++
    d.weight.natAbs.repr

/-- The number as the layout has it. -/
def write (layout : Layout) (d : Digits) : String :=
  if layout.inFull d.weight then d.full layout.wholeEnd else d.scientific

end Digits

/-- A finite number in a layout. -/
def write (layout : Layout) (x : Float32) : String :=
  (if isNegative x then "-" else "") ++ (shortest (.ofFloat32 x) layout.tie).write layout

/-- A number with so many decimal places; the values that are no number are spelled out. -/
def places (count : Nat) (x : Float32) : String :=
  let sign := if isNegative x then "-" else ""
  if x.isNaN then "NaN"
  else if x.isInf then sign ++ "inf"
  else
    let units := fixed (.ofFloat32 x) count
    let digits := (units % power 10 count).repr.toList
    sign ++ (units / power 10 count).repr ++ "." ++
      String.ofList (List.replicate (count - digits.length) '0' ++ digits)

end Diorama.Decimal
