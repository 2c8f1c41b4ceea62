/-
  Colours.

  A colour has four channels of eight bits: alpha, red, green and blue.  `pack` puts them in one
  word, alpha first, which tells colours apart; `mix` goes from one colour to another channel by
  channel.
-/
import Diorama.Scalar

namespace Diorama

/-- A colour with an alpha channel. -/
structure Color where
  a : UInt8
  r : UInt8
  g : UInt8
  b : UInt8
deriving DecidableEq

namespace Color

/-- The colour that shows nothing. -/
def transparent : Color := ⟨0, 0, 0, 0⟩

/-- An opaque colour. -/
def rgb (r g b : UInt8) : Color := ⟨0xFF, r, g, b⟩

/-- The channels as one number, alpha highest. -/
def pack (c : Color) : Nat :=
  ((c.a.toNat * 256 + c.r.toNat) * 256 + c.g.toNat) * 256 + c.b.toNat

/-- The colour a fraction `t` of the way from `c` to `d`. -/
def mix {K : Type} [Scalar K] (c d : Color) (t : K) : Color :=
  let channel (x y : UInt8) : UInt8 :=
    Scalar.toByte (Scalar.lerp (Scalar.ofInt x.toNat) (Scalar.ofInt y.toNat) t)
  ⟨channel c.a d.a, channel c.r d.r, channel c.g d.g, channel c.b d.b⟩

end Color
end Diorama
