/-
  The fewest decimal digits that read back.

  A stored scalar is `mantissa * 2 ^ exponent`, and it stands for every real number that rounds to
  it:  an interval reaching half way to each neighbour, whose ends belong to it when the mantissa is
  even (a tie rounds to the even mantissa).  Its shortest decimal is found by trying decimal grids
  from coarse to fine: on the grid of spacing `10 ^ e` only the two points next to the value matter,
  and the first grid with such a point inside the interval has the fewest digits.  If both points
  are inside, the nearer one is taken; an exact tie is a matter of taste and is left to `Tie`.

  All comparisons are between natural numbers: the value, the ends of its interval and the grid
  point are brought to one common scale.

  `fixed` is the other way to write a scalar: so many decimal places, the last one rounded.
-/

namespace Diorama.Decimal

/-! ## The value of a stored scalar -/

/-- `mantissa * 2 ^ exponent`.  `narrowBelow` says that the next smaller scalar is only half as far
away as the next larger one, as it is at a power of two. -/
structure Binary where
  mantissa : Nat
  exponent : Int
  narrowBelow : Bool

/-- The magnitude of a finite single-precision number. -/
def Binary.ofFloat32 (x : Float32) : Binary :=
  let bits := x.toBits.toNat
  let fraction : Nat := bits % 0x800000
  let level : Nat := bits / 0x800000 % 0x100
  if level = 0 then ⟨fraction, -149, false⟩
  else ⟨fraction + 0x800000, (level : Int) - 150, fraction = 0 ∧ 1 < level⟩

/-- Whether the sign bit of a number is set. -/
def isNegative (x : Float32) : Bool := 0x80000000 ≤ x.toBits.toNat

/-- `significand * 10 ^ exponent`. -/
structure Digits where
  significand : Nat
  exponent : Int
deriving DecidableEq

/-- Which of two equally near digits is taken. -/
inductive Tie where
  | toEven
  | upward
deriving DecidableEq

/-! ## Grids -/

/-- The positive part of an exponent, as a power. -/
def power (base : Nat) (e : Int) : Nat := Nat.pow base e.toNat

/-- The decimal on the grid `10 ^ e` that lies in the interval of `b`, if the grid has one next to
the value. -/
def onGrid? (b : Binary) (tie : Tie) (e : Int) : Option Digits :=
  -- in quarters of the last binary place, then scaled so that grid and interval are whole
  let unit := power 2 (b.exponent - 2) * power 10 (-e)
  let step := power 10 e * power 2 (2 - b.exponent)
  let value := 4 * b.mantissa * unit
  let low := (4 * b.mantissa - if b.narrowBelow then 1 else 2) * unit
  let high := (4 * b.mantissa + 2) * unit
  let inside (d : Nat) : Bool :=
    if b.mantissa % 2 = 0 then low ≤ d * step ∧ d * step ≤ high
    else low < d * step ∧ d * step < high
  let below := value / step
  let above := below + 1
  match inside below, inside above with
  | true, true =>
    let fromBelow := value - below * step
    let fromAbove := above * step - value
    if fromBelow < fromAbove then some ⟨below, e⟩
    else if fromAbove < fromBelow then some ⟨above, e⟩
    else match tie with
      | .toEven => some ⟨if below % 2 = 0 then below else above, e⟩
      | .upward => some ⟨above, e⟩
  | true, false => some ⟨below, e⟩
  | false, true => some ⟨above, e⟩
  | false, false => none

/-- The first hit among `steps` grids from `10 ^ e` downwards. -/
def firstHit (b : Binary) (tie : Tie) : Nat → Int → Digits
  | 0, e => ⟨0, e⟩
  | steps + 1, e =>
    match onGrid? b tie e with
    | some d => d
    | none => firstHit b tie steps (e - 1)

/-- The fewest digits that read back as `b`, nearest to it.  The first grid is coarser than the
value, and nine digits always suffice. -/
def shortest (b : Binary) (tie : Tie) : Digits :=
  if b.mantissa = 0 then ⟨0, 0⟩
  else
    let top := (b.exponent + b.mantissa.log2 + 1) * 30103 / 100000 + 2
    firstHit b tie 16 top

/-! ## Fixed places -/

/-- The quotient rounded to the nearest whole number, a half to the even one. -/
def roundToEven (num den : Nat) : Nat :=
  let quotient := num / den
  let rest := 2 * (num % den)
  if rest < den then quotient
  else if den < rest then quotient + 1
  else if quotient % 2 = 0 then quotient else quotient + 1

/-- The number of units of the last of `places` decimal places in the value. -/
def fixed (b : Binary) (places : Nat) : Nat :=
  roundToEven (b.mantissa * power 2 b.exponent * power 10 places) (power 2 (-b.exponent))

end Diorama.Decimal
