/-
  What does not tell two scalars apart.

  `Scalar.Respects r` says that no operation tells scalars apart that `r` relates.  Everything that
  is computed from scalars then keeps `r` as well: vectors, matrices, curves, and the fraction of
  the way between two key frames.

  Two relations matter.

    * equality, which everything respects: two scenes are compared exactly;
    * `Scalar.Alike`, equality up to the sign of zero.  Single precision respects it, with one
      exception:  a quotient by zero shows the sign of the divisor.  So `Respects` lets a divisor
      change only where it is more than `epsilon`; the other divisors in the library are constants.
-/
import Mathlib.Data.List.Forall2
import Mathlib.Data.Option.Basic
import Diorama.Sampling.KeyFrames
import Diorama.Sampling.Evaluate

namespace Diorama

/-! ## Scalars -/

/-- No operation tells related scalars apart. -/
class Scalar.Respects {K : Type} [Scalar K] (r : K → K → Prop) : Prop where
  equivalence : Equivalence r
  add {x x' y y' : K} : r x x' → r y y' → r (x + y) (x' + y')
  sub {x x' y y' : K} : r x x' → r y y' → r (x - y) (x' - y')
  mul {x x' y y' : K} : r x x' → r y y' → r (x * y) (x' * y')
  neg {x x' : K} : r x x' → r (-x) (-x')
  div {x x' y : K} : r x x' → r (x / y) (x' / y)
  div_above {x x' y y' : K} : Scalar.epsilon < y → r x x' → r y y' → r (x / y) (x' / y')
  lt {x x' y y' : K} : r x x' → r y y' → (x < y ↔ x' < y')
  le {x x' y y' : K} : r x x' → r y y' → (x ≤ y ↔ x' ≤ y')
  sin {x x' : K} : r x x' → r (Scalar.sin x) (Scalar.sin x')
  cos {x x' : K} : r x x' → r (Scalar.cos x) (Scalar.cos x')
  degrees {x x' : K} : r x x' → r (Scalar.degrees x) (Scalar.degrees x')
  floor {x x' : K} : r x x' → r (Scalar.floor x) (Scalar.floor x')
  toByte {x x' : K} : r x x' → Scalar.toByte x = Scalar.toByte x'

/-- Equality is respected by everything. -/
instance Scalar.respects_eq {K : Type} [Scalar K] : Scalar.Respects (Eq : K → K → Prop) where
  equivalence := eq_equivalence
  add := by rintro _ _ _ _ rfl rfl; rfl
  sub := by rintro _ _ _ _ rfl rfl; rfl
  mul := by rintro _ _ _ _ rfl rfl; rfl
  neg := by rintro _ _ rfl; rfl
  div := by rintro _ _ _ rfl; rfl
  div_above := by rintro _ _ _ _ _ rfl rfl; rfl
  lt := by rintro _ _ _ _ rfl rfl; rfl
  le := by rintro _ _ _ _ rfl rfl; rfl
  sin := by rintro _ _ rfl; rfl
  cos := by rintro _ _ rfl; rfl
  degrees := by rintro _ _ rfl; rfl
  floor := by rintro _ _ rfl; rfl
  toByte := by rintro _ _ rfl; rfl

/-- Equal up to the sign of zero. -/
def Scalar.Alike {K : Type} [Scalar K] (x y : K) : Prop :=
  x = y ∨ ((x == 0) = true ∧ (y == 0) = true)

/-- Scalars of which no operation shows the sign of zero, and whose equality test and merging words
tell apart what is not equal up to that sign. -/
class SignBlind (K : Type) [Scalar K] : Prop where
  respects : Scalar.Respects (Scalar.Alike : K → K → Prop)
  alike_of_beq {x y : K} : (x == y) = true → Scalar.Alike x y
  alike_of_word {x y : K} : Scalar.word x = Scalar.word y → Scalar.Alike x y

/-- Over scalars that are blind to the sign of zero, being alike is respected. -/
instance SignBlind.instRespects {K : Type} [Scalar K] [SignBlind K] :
    Scalar.Respects (Scalar.Alike : K → K → Prop) := SignBlind.respects

/-- Tests that hold together choose related values. -/
theorem rel_ite {α β : Type} {R : α → β → Prop} {p q : Prop} [Decidable p] [Decidable q]
    {a a' : α} {b b' : β} (hpq : p ↔ q) (h : R a b) (h' : R a' b') :
    R (if p then a else a') (if q then b else b') := by
  by_cases hp : p
  · rw [if_pos hp, if_pos (hpq.mp hp)]
    exact h
  · rw [if_neg hp, if_neg (mt hpq.mpr hp)]
    exact h'

namespace Scalar.Respects

variable {K : Type} [Scalar K] {r : K → K → Prop} [Respects r]

/-- The relation holds of a scalar and itself. -/
theorem refl (x : K) : r x x := (equivalence (r := r)).refl x

theorem trans {x y z : K} (h : r x y) (h' : r y z) : r x z := (equivalence (r := r)).trans h h'

/-- Related ends and a related fraction give related points between them. -/
theorem lerp {a a' b b' t t' : K} (ha : r a a') (hb : r b b') (ht : r t t') :
    r (Scalar.lerp a b t) (Scalar.lerp a' b' t') :=
  add ha (mul (sub hb ha) ht)

/-- The magnitude is chosen by a comparison with zero, which relatives share. -/
theorem magnitude {x x' : K} (h : r x x') : r (Scalar.magnitude x) (Scalar.magnitude x') :=
  rel_ite (lt h (refl 0)) (neg h) h

/-- The bounds are the same for both, so both stay or both are cut off. -/
theorem clamp {x x' lo hi : K} (h : r x x') :
    r (Scalar.clamp x lo hi) (Scalar.clamp x' lo hi) := by
  have hraised : r (if x < lo then lo else x) (if x' < lo then lo else x') :=
    rel_ite (lt h (refl lo)) (refl lo) h
  exact rel_ite (lt (refl hi) hraised) (refl hi) hraised

/-- A quotient by a scalar that is kept above `epsilon`. -/
theorem div_atLeast {x x' y y' : K} (hx : r x x') (hy : r y y') :
    r (x / atLeast y epsilon) (x' / atLeast y' epsilon) := by
  unfold atLeast
  have hiff := lt (r := r) (refl epsilon) hy
  by_cases h : epsilon < y
  · rw [if_pos h, if_pos (hiff.mp h)]
    exact div_above h hx hy
  · rw [if_neg h, if_neg (mt hiff.mpr h)]
    exact div hx

end Scalar.Respects

/-- Related values, and related values in place of missing ones. -/
theorem rel_getD {α β : Type} {R : α → β → Prop} {x : Option α} {y : Option β} {a : α} {b : β}
    (h : Option.Rel R x y) (hd : R a b) : R (x.getD a) (y.getD b) := by
  cases h with
  | none => exact hd
  | some h => exact h

/-- Related entry by entry through a list in between. -/
theorem forall₂_through {α β γ : Type} {R : α → β → Prop} {S : β → γ → Prop} {T : α → γ → Prop}
    {as : List α} {bs : List β} {cs : List γ} (h : List.Forall₂ R as bs)
    (h' : List.Forall₂ S bs cs) (hT : ∀ a b c, R a b → S b c → T a c) : List.Forall₂ T as cs := by
  induction h generalizing cs with
  | nil =>
    cases h' with
    | nil => exact .nil
  | cons hab _ ih =>
    cases h' with
    | cons hbc hrest => exact .cons (hT _ _ _ hab hbc) (ih hrest)

/-! ## Vectors and matrices -/

/-- Component by component. -/
structure Vec2.Like {K : Type} (r : K → K → Prop) (v w : Vec2 K) : Prop where
  x : r v.x w.x
  y : r v.y w.y

/-- Component by component. -/
structure Vec3.Like {K : Type} (r : K → K → Prop) (v w : Vec3 K) : Prop where
  x : r v.x w.x
  y : r v.y w.y
  z : r v.z w.z

/-- Component by component. -/
structure Vec4.Like {K : Type} (r : K → K → Prop) (v w : Vec4 K) : Prop where
  x : r v.x w.x
  y : r v.y w.y
  z : r v.z w.z
  w : r v.w w.w

/-- Entry by entry. -/
structure Matrix3x2.Like {K : Type} (r : K → K → Prop) (m n : Matrix3x2 K) : Prop where
  m11 : r m.m11 n.m11
  m12 : r m.m12 n.m12
  m21 : r m.m21 n.m21
  m22 : r m.m22 n.m22
  m31 : r m.m31 n.m31
  m32 : r m.m32 n.m32

/-- Entry by entry. -/
structure Matrix4x4.Like {K : Type} (r : K → K → Prop) (m n : Matrix4x4 K) : Prop where
  row1 : m.row1.Like r n.row1
  row2 : m.row2.Like r n.row2
  row3 : m.row3.Like r n.row3
  row4 : m.row4.Like r n.row4

section

open Scalar (Respects)

variable {K : Type} [Scalar K] {r : K → K → Prop} [Respects r]

/-- Every scalar is related to itself, and so is every vector. -/
theorem Vec2.Like.refl (v : Vec2 K) : v.Like r v := ⟨Respects.refl _, Respects.refl _⟩

theorem Vec3.Like.refl (v : Vec3 K) : v.Like r v :=
  ⟨Respects.refl _, Respects.refl _, Respects.refl _⟩

theorem Vec4.Like.refl (v : Vec4 K) : v.Like r v :=
  ⟨Respects.refl _, Respects.refl _, Respects.refl _, Respects.refl _⟩

/-- Likeness of vectors passes on, component by component. -/
theorem Vec2.Like.trans {u v w : Vec2 K} (h : u.Like r v) (h' : v.Like r w) : u.Like r w :=
  ⟨Respects.trans h.x h'.x, Respects.trans h.y h'.y⟩

theorem Vec3.Like.trans {u v w : Vec3 K} (h : u.Like r v) (h' : v.Like r w) : u.Like r w :=
  ⟨Respects.trans h.x h'.x, Respects.trans h.y h'.y, Respects.trans h.z h'.z⟩

theorem Vec4.Like.trans {t u v : Vec4 K} (h : t.Like r u) (h' : u.Like r v) : t.Like r v :=
  ⟨Respects.trans h.x h'.x, Respects.trans h.y h'.y, Respects.trans h.z h'.z,
    Respects.trans h.w h'.w⟩

/-- The point a fraction of the way between two vectors goes component by component. -/
theorem Vec2.Like.lerp {v v' w w' : Vec2 K} {t t' : K} (hv : v.Like r v') (hw : w.Like r w')
    (ht : r t t') : (v.lerp w t).Like r (v'.lerp w' t') :=
  ⟨Respects.lerp hv.x hw.x ht, Respects.lerp hv.y hw.y ht⟩

theorem Vec3.Like.lerp {v v' w w' : Vec3 K} {t t' : K} (hv : v.Like r v') (hw : w.Like r w')
    (ht : r t t') : (v.lerp w t).Like r (v'.lerp w' t') :=
  ⟨Respects.lerp hv.x hw.x ht, Respects.lerp hv.y hw.y ht, Respects.lerp hv.z hw.z ht⟩

theorem Vec4.Like.lerp {v v' w w' : Vec4 K} {t t' : K} (hv : v.Like r v') (hw : w.Like r w')
    (ht : r t t') : (v.lerp w t).Like r (v'.lerp w' t') :=
  ⟨Respects.lerp hv.x hw.x ht, Respects.lerp hv.y hw.y ht, Respects.lerp hv.z hw.z ht,
    Respects.lerp hv.w hw.w ht⟩

/-- Channels are bytes, so related fractions give the same colour. -/
theorem Color.mix_eq {t t' : K} (c d : Color) (ht : r t t') : c.mix d t = c.mix d t' := by
  have hchannel : ∀ x y : UInt8,
      Scalar.toByte (Scalar.lerp (Scalar.ofInt x.toNat) (Scalar.ofInt y.toNat) t) =
        Scalar.toByte (Scalar.lerp (Scalar.ofInt x.toNat) (Scalar.ofInt y.toNat) t') :=
    fun x y => Respects.toByte (r := r) (Respects.lerp (Respects.refl _) (Respects.refl _) ht)
  simp only [Color.mix, hchannel]

namespace Matrix3x2.Like

/-- A matrix is related to itself entry by entry. -/
theorem refl (m : Matrix3x2 K) : m.Like r m :=
  ⟨Respects.refl _, Respects.refl _, Respects.refl _, Respects.refl _, Respects.refl _,
    Respects.refl _⟩

/-- Likeness of matrices passes on, entry by entry. -/
theorem trans {l m n : Matrix3x2 K} (h : l.Like r m) (h' : m.Like r n) : l.Like r n :=
  ⟨Respects.trans h.m11 h'.m11, Respects.trans h.m12 h'.m12, Respects.trans h.m21 h'.m21,
    Respects.trans h.m22 h'.m22, Respects.trans h.m31 h'.m31, Respects.trans h.m32 h'.m32⟩

/-- Shifts by vectors that are alike are alike. -/
theorem shift {v w : Vec2 K} (h : v.Like r w) : (shift v).Like r (shift w) :=
  ⟨Respects.refl _, Respects.refl _, Respects.refl _, Respects.refl _, h.x, h.y⟩

/-- Scalings by vectors that are alike are alike. -/
theorem scale {v w : Vec2 K} (h : v.Like r w) : (scale v).Like r (scale w) :=
  ⟨h.x, Respects.refl _, Respects.refl _, h.y, Respects.refl _, Respects.refl _⟩

/-- Sine and cosine are respected, so rotations by related angles are related. -/
theorem rotation {x y : K} (h : r x y) : (rotation x).Like r (rotation y) :=
  ⟨Respects.cos h, Respects.sin h, Respects.neg (Respects.sin h), Respects.cos h,
    Respects.refl _, Respects.refl _⟩

/-- Every entry of a product is a sum of products of entries. -/
theorem andThen {a a' b b' : Matrix3x2 K} (ha : a.Like r a') (hb : b.Like r b') :
    (a.andThen b).Like r (a'.andThen b') where
  m11 := Respects.add (Respects.mul ha.m11 hb.m11) (Respects.mul ha.m12 hb.m21)
  m12 := Respects.add (Respects.mul ha.m11 hb.m12) (Respects.mul ha.m12 hb.m22)
  m21 := Respects.add (Respects.mul ha.m21 hb.m11) (Respects.mul ha.m22 hb.m21)
  m22 := Respects.add (Respects.mul ha.m21 hb.m12) (Respects.mul ha.m22 hb.m22)
  m31 := Respects.add
    (Respects.add (Respects.mul ha.m31 hb.m11) (Respects.mul ha.m32 hb.m21)) hb.m31
  m32 := Respects.add
    (Respects.add (Respects.mul ha.m31 hb.m12) (Respects.mul ha.m32 hb.m22)) hb.m32

/-- Points go to related points under related matrices. -/
theorem apply {m n : Matrix3x2 K} {p q : Vec2 K} (hm : m.Like r n) (hp : p.Like r q) :
    (m.apply p).Like r (n.apply q) where
  x := Respects.add (Respects.add (Respects.mul hp.x hm.m11) (Respects.mul hp.y hm.m21)) hm.m31
  y := Respects.add (Respects.add (Respects.mul hp.x hm.m12) (Respects.mul hp.y hm.m22)) hm.m32

end Matrix3x2.Like

namespace Matrix4x4.Like

theorem refl (m : Matrix4x4 K) : m.Like r m :=
  ⟨Vec4.Like.refl _, Vec4.Like.refl _, Vec4.Like.refl _, Vec4.Like.refl _⟩

theorem shift {v w : Vec3 K} (h : v.Like r w) : (shift v).Like r (shift w) :=
  ⟨Vec4.Like.refl _, Vec4.Like.refl _, Vec4.Like.refl _, ⟨h.x, h.y, h.z, Respects.refl _⟩⟩

/-- Entries off the diagonal are zero on both sides. -/
theorem scale {v w : Vec3 K} (h : v.Like r w) : (scale v).Like r (scale w) where
  row1 := ⟨h.x, Respects.refl _, Respects.refl _, Respects.refl _⟩
  row2 := ⟨Respects.refl _, h.y, Respects.refl _, Respects.refl _⟩
  row3 := ⟨Respects.refl _, Respects.refl _, h.z, Respects.refl _⟩
  row4 := Vec4.Like.refl _

/-- A rotation about the depth axis has sines and cosines in the plane, and nothing else that
varies. -/
theorem rotation {x y : K} (h : r x y) : (rotation x).Like r (rotation y) where
  row1 := ⟨Respects.cos h, Respects.sin h, Respects.refl _, Respects.refl _⟩
  row2 := ⟨Respects.neg (Respects.sin h), Respects.cos h, Respects.refl _, Respects.refl _⟩
  row3 := Vec4.Like.refl _
  row4 := Vec4.Like.refl _

/-- One row of a product in space. -/
theorem applyRow {v w : Vec4 K} {m n : Matrix4x4 K} (hv : v.Like r w) (hm : m.Like r n) :
    (applyRow v m).Like r (applyRow w n) where
  x := Respects.add (Respects.add (Respects.add (Respects.mul hv.x hm.row1.x)
    (Respects.mul hv.y hm.row2.x)) (Respects.mul hv.z hm.row3.x)) (Respects.mul hv.w hm.row4.x)
  y := Respects.add (Respects.add (Respects.add (Respects.mul hv.x hm.row1.y)
    (Respects.mul hv.y hm.row2.y)) (Respects.mul hv.z hm.row3.y)) (Respects.mul hv.w hm.row4.y)
  z := Respects.add (Respects.add (Respects.add (Respects.mul hv.x hm.row1.z)
    (Respects.mul hv.y hm.row2.z)) (Respects.mul hv.z hm.row3.z)) (Respects.mul hv.w hm.row4.z)
  w := Respects.add (Respects.add (Respects.add (Respects.mul hv.x hm.row1.w)
    (Respects.mul hv.y hm.row2.w)) (Respects.mul hv.z hm.row3.w)) (Respects.mul hv.w hm.row4.w)

/-- A product in space is taken row by row. -/
theorem andThen {a a' b b' : Matrix4x4 K} (ha : a.Like r a') (hb : b.Like r b') :
    (a.andThen b).Like r (a'.andThen b') :=
  ⟨applyRow ha.row1 hb, applyRow ha.row2 hb, applyRow ha.row3 hb, applyRow ha.row4 hb⟩

omit [Scalar K] [Respects r] in
/-- Flattening picks entries, and computes nothing. -/
theorem flatten {m n : Matrix4x4 K} (h : m.Like r n) : m.flatten.Like r n.flatten :=
  ⟨h.row1.x, h.row1.y, h.row2.x, h.row2.y, h.row4.x, h.row4.y⟩

end Matrix4x4.Like

/-! ## Figures -/

/-- The same piece with related points. -/
inductive Segment.Like (r : K → K → Prop) : Segment K → Segment K → Prop
  | line {p q : Vec2 K} : p.Like r q → Segment.Like r (.line p) (.line q)
  | cubic {p p' q q' d d' : Vec2 K} : p.Like r p' → q.Like r q' → d.Like r d' →
      Segment.Like r (.cubic p q d) (.cubic p' q' d')

/-- The same outline with related points. -/
structure Figure.Like (r : K → K → Prop) (a b : Figure K) : Prop where
  start : a.start.Like r b.start
  segments : List.Forall₂ (Segment.Like r) a.segments b.segments
  closed : a.closed = b.closed

theorem Segment.Like.refl (a : Segment K) : a.Like r a := by
  cases a with
  | line p => exact .line (.refl p)
  | cubic p q d => exact .cubic (.refl p) (.refl q) (.refl d)

/-- Pieces in between have to be of one sort for the two ends to be. -/
theorem Segment.Like.trans {a b c : Segment K} (h : a.Like r b) (h' : b.Like r c) :
    a.Like r c := by
  cases h with
  | line hp =>
    cases h' with
    | line hp' => exact .line (hp.trans hp')
  | cubic hp hq hd =>
    cases h' with
    | cubic hp' hq' hd' => exact .cubic (hp.trans hp') (hq.trans hq') (hd.trans hd')

/-- A piece goes where its points go. -/
theorem Segment.Like.transform {m n : Matrix3x2 K} {a b : Segment K} (hm : m.Like r n)
    (h : a.Like r b) : (a.transform m).Like r (b.transform n) := by
  cases h with
  | line hp => exact .line (hm.apply hp)
  | cubic hp hq hd => exact .cubic (hm.apply hp) (hm.apply hq) (hm.apply hd)

/-- A figure is like itself, piece by piece. -/
theorem Figure.Like.refl (a : Figure K) : a.Like r a :=
  ⟨.refl _, List.forall₂_same.mpr fun s _ => .refl s, rfl⟩

theorem Figure.Like.trans {a b c : Figure K} (h : a.Like r b) (h' : b.Like r c) : a.Like r c where
  start := h.start.trans h'.start
  segments := forall₂_through h.segments h'.segments fun _ _ _ => Segment.Like.trans
  closed := h.closed.trans h'.closed

/-- A figure goes where its start and its pieces go. -/
theorem Figure.Like.transform {m n : Matrix3x2 K} {a b : Figure K} (hm : m.Like r n)
    (h : a.Like r b) : (a.transform m).Like r (b.transform n) where
  start := hm.apply h.start
  segments := by
    simp only [Figure.transform]
    rw [List.forall₂_map_left_iff, List.forall₂_map_right_iff]
    exact h.segments.imp fun s t => Segment.Like.transform hm
  closed := h.closed

/-! ## Likeness up to equality is equality -/

section

omit [Scalar K]

/-- Vectors related by equality are equal, and likewise below. -/
theorem Vec2.Like.eq {v w : Vec2 K} (h : v.Like Eq w) : v = w := by
  obtain ⟨x, y⟩ := v
  obtain ⟨rfl, rfl⟩ := h
  rfl

/-- Matrices related by equality are equal. -/
theorem Matrix3x2.Like.eq {m n : Matrix3x2 K} (h : m.Like Eq n) : m = n := by
  obtain ⟨m11, m12, m21, m22, m31, m32⟩ := m
  obtain ⟨rfl, rfl, rfl, rfl, rfl, rfl⟩ := h
  rfl

theorem Vec4.Like.eq {v w : Vec4 K} (h : v.Like Eq w) : v = w := by
  obtain ⟨x, y, z, t⟩ := v
  obtain ⟨rfl, rfl, rfl, rfl⟩ := h
  rfl

/-- Matrices that are alike up to equality are equal. -/
theorem Matrix4x4.Like.eq {m n : Matrix4x4 K} (h : m.Like Eq n) : m = n := by
  obtain ⟨row1, row2, row3, row4⟩ := m
  obtain ⟨row1', row2', row3', row4'⟩ := n
  have h1 : row1 = row1' := h.row1.eq
  have h2 : row2 = row2' := h.row2.eq
  have h3 : row3 = row3' := h.row3.eq
  have h4 : row4 = row4' := h.row4.eq
  rw [h1, h2, h3, h4]

/-- Pieces of one sort with equal points are equal. -/
theorem Segment.Like.eq {a b : Segment K} (h : a.Like Eq b) : a = b := by
  cases h with
  | line hp => rw [hp.eq]
  | cubic hp hq hd => rw [hp.eq, hq.eq, hd.eq]

/-- Figures with equal starts and equal pieces are equal. -/
theorem Figure.Like.eq {a b : Figure K} (h : a.Like Eq b) : a = b := by
  obtain ⟨start, segments, closed⟩ := a
  obtain ⟨start', segments', closed'⟩ := b
  have hstart : start = start' := h.start.eq
  have hsegments : List.Forall₂ Eq segments segments' := h.segments.imp fun _ _ => Segment.Like.eq
  rw [List.forall₂_eq_eq_eq] at hsegments
  have hclosed : closed = closed' := h.closed
  rw [hstart, hsegments, hclosed]

end

/-! ## Key frames -/

/-- The same key frames and a related fraction. -/
structure Span.Like (r : K → K → Prop) (a b : Span K) : Prop where
  lo : a.lo = b.lo
  hi : a.hi = b.hi
  fraction : r a.fraction b.fraction

/-- The span around a point is found at the same key frames: every test compares relatives. -/
theorem Span.between?_like {u u' : K} {ps qs : List K} (hu : r u u') (h : List.Forall₂ r ps qs)
    (i : Nat) : Option.Rel (Span.Like r) (Span.between? u i ps) (Span.between? u' i qs) := by
  induction h generalizing i with
  | nil => exact .none
  | cons hp hrest ih =>
    cases hrest with
    | nil => exact .none
    | cons hq hrest =>
      refine rel_ite (and_congr (Respects.le hp hu) (Respects.le hu hq)) ?_ (ih (i + 1))
      refine .some ⟨rfl, rfl, Respects.clamp ?_⟩
      exact Respects.div_atLeast (Respects.sub hu hp) (Respects.sub hq hp)

omit [Scalar K] [Respects r] in
/-- The last entries of related lists are related. -/
theorem rel_getLast {ps qs : List K} (h : List.Forall₂ r ps qs) (hps : ps ≠ []) (hqs : qs ≠ []) :
    r (ps.getLast hps) (qs.getLast hqs) := by
  induction h with
  | nil => exact absurd rfl hps
  | cons hp hrest ih =>
    cases hrest with
    | nil => exact hp
    | cons hq hrest => simpa using ih (by simp) (by simp)

/-- The key frames around a point are found alike. -/
theorem Span.find_like {u u' : K} {ps qs : List K} (hu : r u u') (h : List.Forall₂ r ps qs) :
    (Span.find u ps).Like r (Span.find u' qs) := by
  have hat : ∀ n : Nat, Span.Like r ⟨n, n, 0⟩ ⟨n, n, 0⟩ := fun n => ⟨rfl, rfl, Respects.refl 0⟩
  cases h with
  | nil => exact hat 0
  | cons hp hrest =>
    cases hrest with
    | nil => exact hat 0
    | cons hq hrest =>
      have hlast := rel_getLast (.cons hq hrest) (by simp) (by simp)
      simp only [Span.find, hrest.length_eq]
      refine rel_ite (Respects.le hu hp) (hat 0) (rel_ite (Respects.le hlast hu) (hat _) ?_)
      exact rel_getD (Span.between?_like hu (.cons hp (.cons hq hrest)) 0) (hat _)

/-- A curve is a polynomial in its control values and the point. -/
theorem bezier_like {p p' q q' t t' : K} (hp : r p p') (hq : r q q') (ht : r t t') :
    r (bezier p q t) (bezier p' q' t') := by
  have hu : r (1 - t) (1 - t') := Respects.sub (Respects.refl 1) ht
  have hthree : r (Scalar.ofInt 3 : K) (Scalar.ofInt 3) := Respects.refl _
  refine Respects.add (Respects.add ?_ ?_) (Respects.mul (Respects.mul ht ht) ht)
  · exact Respects.mul (Respects.mul (Respects.mul (Respects.mul hthree hu) hu) ht) hp
  · exact Respects.mul (Respects.mul (Respects.mul (Respects.mul hthree hu) ht) ht) hq

/-- Halving goes the same way in both runs, by induction on the number of halvings that are left. -/
theorem bisect_like {curve curve' : K → K} {t t' : K}
    (hcurve : ∀ x x', r x x' → r (curve x) (curve' x')) (ht : r t t') (n : Nat)
    {lo lo' hi hi' mid mid' : K} (hlo : r lo lo') (hhi : r hi hi') (hmid : r mid mid') :
    r (bisect curve t n lo hi mid) (bisect curve' t' n lo' hi' mid') := by
  induction n generalizing lo lo' hi hi' mid mid' with
  | zero => exact hmid
  | succ n ih =>
    have hx := hcurve mid mid' hmid
    have hhalf : r (Scalar.half : K) Scalar.half := Respects.refl _
    refine rel_ite (Respects.lt (Respects.magnitude (Respects.sub hx ht)) (Respects.refl _)) hmid ?_
    refine rel_ite (Respects.lt hx ht) ?_ ?_
    · exact ih hmid hhi (Respects.mul hhalf (Respects.add hmid hhi))
    · exact ih hlo hmid (Respects.mul hhalf (Respects.add hlo hmid))

/-- A curve eases related fractions to related ones. -/
theorem bezierEase_like {c c' d d' : Vec2 K} {t t' : K} (hc : c.Like r c') (hd : d.Like r d')
    (ht : r t t') : r (bezierEase c d t) (bezierEase c' d' t') := by
  have hclamped : r (Scalar.clamp t 0 1) (Scalar.clamp t' 0 1) := Respects.clamp ht
  refine bezier_like hc.y hd.y ?_
  exact bisect_like (fun _ _ hx => bezier_like hc.x hd.x hx) hclamped 24 (Respects.refl 0)
    (Respects.refl 1) hclamped

/-- A fraction is eased to a step by rounding down, which is respected. -/
theorem stepEase_like (steps : Int32) {t t' : K} (ht : r t t') :
    r (stepEase steps t) (stepEase steps t') :=
  Respects.div (Respects.floor (Respects.mul ht (Respects.refl _)))

end
end Diorama
