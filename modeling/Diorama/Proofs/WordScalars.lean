/-
  Words as scalars.

  Words of 32 bits that wrap around are scalars whose arithmetic is exact and can be computed with:
  they are a commutative ring, each one is its own word for merging, and equal is the same as alike.
  Angles are taken to the quarter turn.  What is proved here about scalars with laws can be seen at
  work on them.

  `specimen` is a small scene over them in which there is something to do for every step of the
  optimiser:  two brushes that are the same, a property that has its default value, a transform to
  fold, a matrix to push down, and two containers to get rid of.
-/
import Diorama.Proofs.Likeness
import Diorama.Scene.Index

namespace Diorama

/-- The sine of an angle in degrees at quarter turns. -/
def quarterSine (x : BitVec 32) : BitVec 32 :=
  if x.toNat % 360 = 90 then 1#32 else if x.toNat % 360 = 270 then -1#32 else 0#32

/-- Words that wrap around. -/
instance Scalar.instWord : Scalar (BitVec 32) where
  zero := 0#32
  one := 1#32
  add := BitVec.add
  sub := BitVec.sub
  mul := BitVec.mul
  neg := BitVec.neg
  div := BitVec.udiv
  beq x y := decide (x = y)
  lt x y := x.toNat < y.toNat
  le x y := x.toNat ≤ y.toNat
  decidableLT x y := Nat.decLt x.toNat y.toNat
  decidableLE x y := Nat.decLe x.toNat y.toNat
  ofInt := BitVec.ofInt 32
  sin := quarterSine
  cos x := quarterSine (BitVec.add x 90#32)
  degrees x := x
  floor x := x
  toByte x := UInt8.ofNat x.toNat
  epsilon := 1#32
  tolerance := 1#32
  word x := UInt32.ofBitVec x

/-- Words that look alike are the same, as a word has one zero. -/
theorem Scalar.alike_word_iff {x y : BitVec 32} : Scalar.Alike x y ↔ x = y := by
  constructor
  · rintro (h | ⟨hx, hy⟩)
    · exact h
    · exact (of_decide_eq_true hx).trans (of_decide_eq_true hy).symm
  · exact Or.inl

instance SignBlind.instWord : SignBlind (BitVec 32) where
  respects := by
    have heq : (Scalar.Alike : BitVec 32 → BitVec 32 → Prop) = Eq :=
      funext fun x => funext fun y => propext Scalar.alike_word_iff
    rw [heq]
    exact Scalar.respects_eq
  alike_of_beq h := Or.inl (of_decide_eq_true h)
  alike_of_word h := Or.inl (UInt32.ofBitVec.inj h)

/-- A visual that shows a sprite inside a container, beside an empty one. -/
def specimen : Scene (BitVec 32) where
  root := ⟨0⟩
  objects := #[
    { content := .shapeVisual { offset := some ⟨5, 6, 0⟩ } [⟨1⟩, ⟨2⟩] },
    { content := .containerShape { matrix := some ⟨2, 0, 0, 3, 7, 8⟩ } [⟨3⟩] },
    { content := .containerShape {} [] },
    { content := .spriteShape {
        transform := { scale := some ⟨1, 1⟩, rotation := some 90 }
        geometry := some ⟨4⟩, fillBrush := some ⟨5⟩, strokeBrush := some ⟨6⟩ } },
    { content := .ellipseGeometry {} none (some ⟨4, 4⟩) },
    { content := .colorBrush (some (.rgb 255 0 0)) },
    { content := .colorBrush (some (.rgb 255 0 0)) }]

/-- The index of the specimen. -/
def specimenIndex : Index where
  nodes := [
    ⟨⟨0⟩, []⟩,
    ⟨⟨1⟩, [⟨0, .child 0⟩]⟩,
    ⟨⟨3⟩, [⟨1, .child 0⟩]⟩,
    ⟨⟨4⟩, [⟨2, .geometry⟩]⟩,
    ⟨⟨5⟩, [⟨2, .fillBrush⟩]⟩,
    ⟨⟨6⟩, [⟨2, .strokeBrush⟩]⟩,
    ⟨⟨2⟩, [⟨0, .child 1⟩]⟩]
  postOrder := [3, 4, 5, 2, 1, 6, 0]

/-- The index of the specimen. -/
theorem specimen_build : Index.build specimen = .ok specimenIndex := by cbv

end Diorama
