/-
  Spelled keys end by themselves.

  A spelled key has no separators, so every part must say itself where it ends.  `Atom.Exact R` puts
  that in one line: whatever follows two spelled values, the lists are equal if and only if the
  values are related by `R` and what follows is equal.  Single atoms have it, options and lists keep
  it, and parts in a row are taken off one after the other.

  What is left of two objects that are spelled alike is `Object.Agrees`: they are of one kind,
  scalars have one word, references one atom, and everything else is equal
  (`Object.spelling_eq_iff`).
-/
import Mathlib
import Diorama.Merge.Spelling
import Diorama.Proofs.Likeness
import Diorama.Proofs.Renaming

namespace Diorama

/-! ## Agreement -/

section Agrees

variable {K : Type} (r : K → K → Prop) (e : ObjectId → ObjectId → Prop)

/-- Bound by bound. -/
@[mk_iff] structure Trim.Agrees (t u : Trim K) : Prop where
  start : Option.Rel r t.start u.start
  stop : Option.Rel r t.stop u.stop
  offset : Option.Rel r t.offset u.offset

/-- The same composition, of parts that agree. -/
def Outline.Agrees : Outline K → Outline K → Prop
  | .figures mode drawn, .figures mode' drawn' =>
    mode = mode' ∧ List.Forall₂ (Figure.Like r) drawn drawn'
  | .group mode parts, .group mode' parts' => mode = mode' ∧ List.Forall₂ e parts parts'
  | .transformed source m, .transformed source' m' => e source source' ∧ m.Like r m'
  | _, _ => False

/-- Values of one sort that agree. -/
def KeyFrameValue.Agrees : KeyFrameValue K → KeyFrameValue K → Prop
  | .scalar x, .scalar y => r x y
  | .vector2 v, .vector2 w => v.Like r w
  | .vector3 v, .vector3 w => v.Like r w
  | .vector4 v, .vector4 w => v.Like r w
  | .color c, .color d => c = d
  | .boolean b, .boolean c => b = c
  | .path id, .path id' => e id id'
  | .expression text, .expression text' => text = text'
  | _, _ => False

/-- At one place, with values and easings that agree; a missing easing agrees with a missing one
only. -/
@[mk_iff] structure KeyFrame.Agrees (k l : KeyFrame K) : Prop where
  progress : r k.progress l.progress
  value : k.value.Agrees r e l.value
  easing : Option.Rel e k.easing l.easing

/-- Animations of one type, one duration and one target, whose key frames agree in order. -/
@[mk_iff] structure KeyFrameAnimation.Agrees (a b : KeyFrameAnimation K) : Prop where
  kind : a.kind = b.kind
  duration : a.duration = b.duration
  target : a.target = b.target
  frames : List.Forall₂ (KeyFrame.Agrees r e) a.frames b.frames

/-- Parameters of one name that read objects which agree. -/
@[mk_iff] structure Parameter.Agrees (p q : Parameter) : Prop where
  name : p.name = q.name
  object : e p.object q.object

/-- The same expression for the same target, over parameters that agree in order. -/
@[mk_iff] structure ExpressionAnimation.Agrees (a b : ExpressionAnimation) : Prop where
  expression : a.expression = b.expression
  target : a.target = b.target
  parameters : List.Forall₂ (Parameter.Agrees e) a.parameters b.parameters

/-- Animators of one property whose animations and controllers agree. -/
@[mk_iff] structure Animator.Agrees (a b : Animator) : Prop where
  target : a.target = b.target
  animation : e a.animation b.animation
  controller : Option.Rel e a.controller b.controller

/-- Contents of one kind, among those that are ever merged, that agree property by property. -/
def Content.Agrees : Content K → Content K → Prop
  | .ellipseGeometry t center radius, .ellipseGeometry t' center' radius' =>
    t.Agrees r t' ∧ Option.Rel (Vec2.Like r) center center' ∧
      Option.Rel (Vec2.Like r) radius radius'
  | .rectangleGeometry t offset size, .rectangleGeometry t' offset' size' =>
    t.Agrees r t' ∧ Option.Rel (Vec2.Like r) offset offset' ∧ Option.Rel (Vec2.Like r) size size'
  | .roundedRectangleGeometry t offset size corner,
      .roundedRectangleGeometry t' offset' size' corner' =>
    t.Agrees r t' ∧ Option.Rel (Vec2.Like r) offset offset' ∧
      Option.Rel (Vec2.Like r) size size' ∧ Option.Rel (Vec2.Like r) corner corner'
  | .pathGeometry t p, .pathGeometry t' p' => t.Agrees r t' ∧ Option.Rel e p p'
  | .path source, .path source' => Option.Rel e source source'
  | .geometry outline, .geometry outline' => outline.Agrees r e outline'
  | .colorBrush color, .colorBrush color' => color = color'
  | .linearEasing, .linearEasing => True
  | .cubicBezierEasing p q, .cubicBezierEasing p' q' => p.Like r p' ∧ q.Like r q'
  | .stepEasing steps i j, .stepEasing steps' i' j' => steps = steps' ∧ i = i' ∧ j = j'
  | .keyFrameAnimation a, .keyFrameAnimation b => a.Agrees r e b
  | .expressionAnimation a, .expressionAnimation b => a.Agrees e b
  | _, _ => False

/-- Objects of one kind that agree in everything but comment, descriptions and property bag. -/
@[mk_iff] structure Object.Agrees (o p : Object K) : Prop where
  content : o.content.Agrees r e p.content
  animators : List.Forall₂ (Animator.Agrees e) o.attached.animators p.attached.animators

end Agrees

/-! ## Images that tell values apart -/

/-- Two values have one image if and only if they are related. -/
def TellsApart {α β : Type} (R : α → α → Prop) (f : α → β) : Prop := ∀ a b, f a = f b ↔ R a b

namespace TellsApart

variable {α β : Type} {R : α → α → Prop} {f : α → β}

theorem iff (h : TellsApart R f) (a b : α) : f a = f b ↔ R a b := h a b

/-- An image of a value that may be missing tells apart a missing one from every other. -/
theorem option (h : TellsApart R f) : TellsApart (Option.Rel R) (Option.map f) := by
  intro a b
  cases a <;> cases b <;> simp [h.iff]

/-- Entry by entry: lists of two lengths have images of two lengths. -/
theorem list (h : TellsApart R f) : TellsApart (List.Forall₂ R) (List.map f) := by
  intro l m
  rw [← List.forall₂_eq_eq_eq, List.forall₂_map_left_iff, List.forall₂_map_right_iff]
  simp only [h.iff]

end TellsApart

/-! ## Spelling that ends by itself -/

namespace Atom

variable {α : Type} {R : α → α → Prop} {spell : α → List Atom}

/-- Whatever follows them, two values are spelled alike if and only if they are related. -/
def Exact (R : α → α → Prop) (spell : α → List Atom) : Prop :=
  ∀ a b x y, spell a ++ x = spell b ++ y ↔ R a b ∧ x = y

/-- No value is spelled like an unset property. -/
def NeverUnset (spell : α → List Atom) : Prop :=
  ∀ a, ∃ first rest, first ≠ Atom.unset ∧ spell a = first :: rest

namespace Exact

theorem iff (h : Exact R spell) (a b : α) (x y : List Atom) :
    spell a ++ x = spell b ++ y ↔ R a b ∧ x = y := h a b x y

/-- One atom that tells apart what is not related. -/
theorem single {f : α → Atom} (hf : TellsApart R f) : Exact R fun a => [f a] := by
  intro a b x y
  rw [List.singleton_append, List.singleton_append, List.cons.injEq, hf.iff]

/-- An optional part is exact if no value starts like a missing one. -/
theorem option (h : Exact R spell) (hset : NeverUnset spell) :
    Exact (Option.Rel R) (Atom.option spell) := by
  intro a b x y
  cases a with
  | none =>
    cases b with
    | none => simp [Atom.option]
    | some b =>
      obtain ⟨first, rest, hfirst, hb⟩ := hset b
      have hrel : ¬ Option.Rel R none (some b) := by rintro ⟨⟩
      simp [Atom.option, hb, hfirst.symm, hrel]
  | some a =>
    cases b with
    | none =>
      obtain ⟨first, rest, hfirst, ha⟩ := hset a
      have hrel : ¬ Option.Rel R (some a) none := by rintro ⟨⟩
      simp [Atom.option, ha, hfirst, hrel]
    | some b => simp [Atom.option, h a b x y]

/-- The entries of two lists of one length are taken off one at a time. -/
theorem flatMap (h : Exact R spell) {l m : List α} (hlen : l.length = m.length) (x y : List Atom) :
    l.flatMap spell ++ x = m.flatMap spell ++ y ↔ List.Forall₂ R l m ∧ x = y := by
  induction l generalizing m with
  | nil =>
    obtain rfl := List.length_eq_zero_iff.mp hlen.symm
    simp
  | cons a l ih =>
    obtain ⟨b, m, rfl⟩ := List.exists_cons_of_length_eq_add_one hlen.symm
    have hrest := ih (Nat.succ.inj hlen)
    rw [List.flatMap_cons, List.flatMap_cons, List.append_assoc, List.append_assoc, h, hrest,
      List.forall₂_cons, and_assoc]

/-- The length goes ahead of a list, so that its end is known. -/
theorem list (h : Exact R spell) : Exact (List.Forall₂ R) (Atom.list spell) := by
  intro l m x y
  rw [Atom.list, Atom.list, List.cons_append, List.cons_append, List.cons.injEq]
  constructor
  · rintro ⟨hlen, hrest⟩
    injection hlen with hlen
    exact (h.flatMap (Int.ofNat.inj hlen) x y).mp hrest
  · rintro ⟨hrel, hxy⟩
    have hlen := hrel.length_eq
    exact ⟨by rw [hlen], (h.flatMap hlen x y).mpr ⟨hrel, hxy⟩⟩

/-- Values that are spelled as their images. -/
theorem comap {β : Type} {S : β → β → Prop} (h : Exact R spell) (f : β → α)
    (hS : ∀ a b, R (f a) (f b) ↔ S a b) : Exact S fun b => spell (f b) := by
  intro a b x y
  rw [h, hS]

end Exact

theorem neverUnset_single {f : α → Atom} (hf : ∀ a, f a ≠ .unset) : NeverUnset fun a => [f a] :=
  fun a => ⟨f a, [], hf a, rfl⟩

/-- A list starts with its length, which is a number. -/
theorem neverUnset_list : NeverUnset (Atom.list spell) :=
  fun l => ⟨.number (Int.ofNat l.length), l.flatMap spell, by simp, rfl⟩

end Atom

open Atom (Exact NeverUnset)

/-! ## Parts -/

/-- Each fill mode has a tag of its own. -/
theorem FillMode.spelling_exact : Exact Eq FillMode.spelling :=
  .single fun a b => by cases a <;> cases b <;> decide

/-- The four channels can be read back from the word. -/
theorem Color.pack_injective : Function.Injective Color.pack := by
  intro c d h
  obtain ⟨a, r, g, b⟩ := c
  obtain ⟨a', r', g', b'⟩ := d
  have hbyte : ∀ x : UInt8, x.toNat < 256 := fun x => x.toNat_lt
  have ha := hbyte a; have ha' := hbyte a'
  have hr := hbyte r; have hr' := hbyte r'
  have hg := hbyte g; have hg' := hbyte g'
  have hb := hbyte b; have hb' := hbyte b'
  simp only [Color.pack] at h
  simp only [Color.mk.injEq, ← UInt8.toNat_inj]
  omega

/-- A colour is one number. -/
theorem Color.spelling_exact : Exact Eq Color.spelling :=
  .single fun c d => by simp [Color.pack_injective.eq_iff]

theorem spellText_exact : Exact Eq spellText := .single fun s t => by simp

theorem spellFlag_exact : Exact Eq spellFlag := .single fun b c => by simp

/-- A count of steps is one number. -/
theorem steps_exact : Exact Eq fun n : Int32 => [.number n.toInt] :=
  .single fun m n => by rw [Atom.number.injEq, Int32.toInt_inj]

section Scalars

variable {K : Type} {word : K → UInt32} {r : K → K → Prop}

attribute [mk_iff] Vec2.Like Vec3.Like Vec4.Like Matrix3x2.Like Segment.Like Figure.Like

/-- Scalars are spelled as their words. -/
theorem spellScalar_exact (hword : TellsApart r word) : Exact r (spellScalar word) :=
  .single fun x y => by rw [Atom.word.injEq, hword.iff]

/-- A vector is spelled as the list of its components. -/
theorem Vec2.spelling_exact (hword : TellsApart r word) :
    Exact (Vec2.Like r) (Vec2.spelling word) :=
  (spellScalar_exact hword).list.comap Vec2.toList fun v w => by
    simp [Vec2.toList, Vec2.like_iff]

/-- A vector starts with a length. -/
theorem Vec2.neverUnset_spelling : NeverUnset (Vec2.spelling word) :=
  fun v => Atom.neverUnset_list v.toList

theorem Vec3.spelling_exact (hword : TellsApart r word) :
    Exact (Vec3.Like r) (Vec3.spelling word) :=
  (spellScalar_exact hword).list.comap Vec3.toList fun v w => by
    simp [Vec3.toList, Vec3.like_iff]

theorem Vec4.spelling_exact (hword : TellsApart r word) :
    Exact (Vec4.Like r) (Vec4.spelling word) :=
  (spellScalar_exact hword).list.comap Vec4.toList fun v w => by
    simp [Vec4.toList, Vec4.like_iff]

/-- A matrix is spelled row by row. -/
theorem Matrix3x2.spelling_exact (hword : TellsApart r word) :
    Exact (Matrix3x2.Like r) (Matrix3x2.spelling word) :=
  (spellScalar_exact hword).list.comap Matrix3x2.toList fun m n => by
    simp [Matrix3x2.toList, Matrix3x2.like_iff]

/-- The bounds of a trim are spelled one by one, each with a mark if it is not set. -/
theorem Trim.spelling_exact (hword : TellsApart r word) :
    Exact (Trim.Agrees r) (Trim.spelling word) := by
  have hbound := (spellScalar_exact hword).option (Atom.neverUnset_single fun _ => by simp)
  intro t u x y
  simp only [Trim.spelling, List.append_assoc, hbound.iff, Trim.agrees_iff, and_assoc]

/-- The two pieces have tags of their own, and their points follow. -/
theorem Segment.spelling_exact (hword : TellsApart r word) :
    Exact (Segment.Like r) (Segment.spelling word) := by
  have hpoint := Vec2.spelling_exact hword
  intro a b x y
  cases a <;> cases b <;> simp [Segment.spelling, hpoint.iff, Segment.like_iff, and_assoc]

/-- The start, whether the figure is closed, and the pieces with their number. -/
theorem Figure.spelling_exact (hword : TellsApart r word) :
    Exact (Figure.Like r) (Figure.spelling word) := by
  have hpoint := Vec2.spelling_exact hword
  have hsegments := (Segment.spelling_exact hword).list
  intro a b x y
  simp only [Figure.spelling, List.append_assoc, List.cons_append, hpoint.iff, List.cons.injEq,
    Atom.flag.injEq, hsegments.iff, Figure.like_iff]
  tauto

end Scalars

section References

variable {K : Type} {word : K → UInt32} {node : ObjectId → Atom} {r : K → K → Prop}
  {e : ObjectId → ObjectId → Prop}

/-- Scalars have one word, and references one atom, exactly when they are related. -/
structure Atom.Reflects (word : K → UInt32) (node : ObjectId → Atom) (r : K → K → Prop)
    (e : ObjectId → ObjectId → Prop) : Prop where
  scalars : TellsApart r word
  references : TellsApart e node
  node_ne : ∀ a, node a ≠ .unset

open Atom (Reflects)

/-- References are spelled as the atoms of what they refer to. -/
theorem spellReference_exact (h : Reflects word node r e) : Exact e (spellReference node) :=
  .single h.references

/-- A reference that may be missing is marked if it is. -/
theorem option_spellReference_exact (h : Reflects word node r e) :
    Exact (Option.Rel e) (Atom.option (spellReference node)) :=
  (spellReference_exact h).option (Atom.neverUnset_single h.node_ne)

/-- An optional part that has no related values but equal ones. -/
theorem Atom.Exact.option_eq {α : Type} {spell : α → List Atom} (h : Exact Eq spell)
    (hset : NeverUnset spell) : Exact Eq (Atom.option spell) := by
  intro a b x y
  rw [h.option hset]
  cases a <;> cases b <;> simp

/-- A text that may be missing is marked if it is. -/
theorem option_spellText_exact : Exact Eq (Atom.option spellText) :=
  spellText_exact.option_eq (Atom.neverUnset_single fun _ => by simp)

/-- The ways to make an outline have tags of their own. -/
theorem Outline.spelling_exact (h : Reflects word node r e) :
    Exact (Outline.Agrees r e) (Outline.spelling word node) := by
  have hmode := FillMode.spelling_exact.option_eq (Atom.neverUnset_single fun _ => by simp)
  have hfigures := (Figure.spelling_exact h.scalars).list
  have hgroup := (spellReference_exact h).list
  have hsource := spellReference_exact h
  have hmatrix := Matrix3x2.spelling_exact h.scalars
  intro a b x y
  cases a <;> cases b <;>
    simp [Outline.spelling, Outline.Agrees, hmode.iff, hfigures.iff, hgroup.iff, hsource.iff,
      hmatrix.iff, and_assoc]

/-- The types of values have tags of their own, and the value follows. -/
theorem KeyFrameValue.spelling_exact (h : Reflects word node r e) :
    Exact (KeyFrameValue.Agrees r e) (KeyFrameValue.spelling word node) := by
  have hscalar := spellScalar_exact h.scalars
  have hvector2 := Vec2.spelling_exact h.scalars
  have hvector3 := Vec3.spelling_exact h.scalars
  have hvector4 := Vec4.spelling_exact h.scalars
  have hpath := spellReference_exact h
  intro a b x y
  cases a <;> cases b <;>
    simp [KeyFrameValue.spelling, KeyFrameValue.Agrees, hscalar.iff, hvector2.iff, hvector3.iff,
      hvector4.iff, hpath.iff, Color.spelling_exact.iff, spellFlag_exact.iff, spellText_exact.iff]

/-- The place, the value, and the easing with a mark if there is none. -/
theorem KeyFrame.spelling_exact (h : Reflects word node r e) :
    Exact (KeyFrame.Agrees r e) (KeyFrame.spelling word node) := by
  have hprogress := spellScalar_exact h.scalars
  have hvalue := KeyFrameValue.spelling_exact h
  have heasing := option_spellReference_exact h
  intro k l x y
  simp only [KeyFrame.spelling, List.append_assoc, hprogress.iff, hvalue.iff, heasing.iff,
    KeyFrame.agrees_iff, and_assoc]

/-- Two types of values have two names. -/
theorem ValueKind.name_injective : Function.Injective ValueKind.name := by
  intro a b h
  cases a <;> cases b <;> first | rfl | exact absurd h (by decide)

/-- The type, the duration and the target of an animation go ahead of its key frames. -/
theorem KeyFrameAnimation.spelling_exact (h : Reflects word node r e) :
    Exact (KeyFrameAnimation.Agrees r e) (KeyFrameAnimation.spelling word node) := by
  have hframes := (KeyFrame.spelling_exact h).list
  intro a b x y
  simp only [KeyFrameAnimation.spelling, List.append_assoc, List.cons_append, List.cons.injEq,
    Atom.tag.injEq, Atom.number.injEq, ValueKind.name_injective.eq_iff, Int64.toInt_inj,
    option_spellText_exact.iff, hframes.iff, KeyFrameAnimation.agrees_iff, and_assoc]

theorem Parameter.spelling_exact (h : Reflects word node r e) :
    Exact (Parameter.Agrees e) (Parameter.spelling node) := by
  have hobject := spellReference_exact h
  intro p q x y
  simp only [Parameter.spelling, List.append_assoc, spellText_exact.iff, hobject.iff,
    Parameter.agrees_iff, and_assoc]

/-- The text and the target of an expression go ahead of its parameters. -/
theorem ExpressionAnimation.spelling_exact (h : Reflects word node r e) :
    Exact (ExpressionAnimation.Agrees e) (ExpressionAnimation.spelling node) := by
  have hparameters := (Parameter.spelling_exact h).list
  intro a b x y
  simp only [ExpressionAnimation.spelling, List.append_assoc, spellText_exact.iff,
    option_spellText_exact.iff, hparameters.iff, ExpressionAnimation.agrees_iff, and_assoc]

/-- The property, the animation and the controller, with a mark if there is none. -/
theorem Animator.spelling_exact (h : Reflects word node r e) :
    Exact (Animator.Agrees e) (Animator.spelling node) := by
  have hanimation := spellReference_exact h
  have hcontroller := option_spellReference_exact h
  intro a b x y
  simp only [Animator.spelling, List.append_assoc, spellText_exact.iff, hanimation.iff,
    hcontroller.iff, Animator.agrees_iff, and_assoc]

/-! ## Objects -/

/-- Two kinds have two labels. -/
theorem Kind.label_injective : Function.Injective Kind.label := by
  have hfound : ∀ kind : Kind, Kind.all.find? (fun k => k.label = kind.label) = some kind := by
    intro kind
    cases kind <;> decide
  intro a b h
  have ha := hfound a
  rw [h, hfound b] at ha
  exact (Option.some.inj ha).symm

/-- What agrees is of one kind. -/
theorem Content.Agrees.kind_eq {c d : Content K} (h : c.Agrees r e d) : c.kind = d.kind := by
  unfold Content.Agrees at h
  split at h
  all_goals first | rfl | cases h

/-- Contents of one kind, whatever follows: each kind is a row of parts, which are taken off from
the left. -/
theorem Content.spelling_append_eq_iff (h : Reflects word node r e) {o p : Object K}
    (ho : o.isMergeable = true) (hkind : o.kind = p.kind) (x y : List Atom) :
    o.content.spelling word node ++ x = p.content.spelling word node ++ y ↔
      o.content.Agrees r e p.content ∧ x = y := by
  have htrim := Trim.spelling_exact h.scalars
  have hpoint := Vec2.spelling_exact h.scalars
  have hpoint? := hpoint.option Vec2.neverUnset_spelling
  have hreference? := option_spellReference_exact h
  have houtline := Outline.spelling_exact h
  have hcolor? := Color.spelling_exact.option_eq (Atom.neverUnset_single fun _ => by simp)
  have hsteps? := steps_exact.option_eq (Atom.neverUnset_single fun _ => by simp)
  have hflag? := spellFlag_exact.option_eq (Atom.neverUnset_single fun _ => by simp)
  have hframes := KeyFrameAnimation.spelling_exact h
  have hexpression := ExpressionAnimation.spelling_exact h
  obtain ⟨attached, c⟩ := o
  obtain ⟨attached', d⟩ := p
  -- a content that is never merged is not there, nor are two contents of different kinds
  cases c <;> first | cases ho | skip
  all_goals cases d <;> cases hkind
  all_goals
    simp only [Content.spelling, Content.Agrees, List.append_assoc, List.nil_append, htrim.iff,
      hpoint.iff, hpoint?.iff, hreference?.iff, houtline.iff, hcolor?.iff, hsteps?.iff, hflag?.iff,
      hframes.iff, hexpression.iff, true_and, and_assoc]

/-- **Objects are spelled alike if and only if they agree.** -/
theorem Object.spelling_eq_iff (h : Reflects word node r e) {o p : Object K}
    (ho : o.isMergeable = true) :
    o.spelling word node = p.spelling word node ↔ o.Agrees r e p := by
  have hanimators := (Animator.spelling_exact h).list
  rw [Object.spelling, Object.spelling, List.cons.injEq, Atom.tag.injEq,
    Kind.label_injective.eq_iff, Object.agrees_iff]
  by_cases hkind : o.kind = p.kind
  · have hlast := hanimators.iff o.attached.animators p.attached.animators [] []
    rw [List.append_nil, List.append_nil] at hlast
    rw [Content.spelling_append_eq_iff h ho hkind, hlast]
    simp [hkind]
  · have hcontent : ¬ o.content.Agrees r e p.content := fun hc => hkind hc.kind_eq
    simp [hkind, hcontent]

end References

/-! ## Objects under other ids -/

section Renamed

variable {K : Type} (word : K → UInt32) (node : ObjectId → Atom) (f : ObjectId → ObjectId)

/-- Options are spelled by what is spelled of their values. -/
theorem Atom.option_map {α β : Type} (spell : β → List Atom) (g : α → β) (a : Option α) :
    Atom.option spell (a.map g) = Atom.option (fun a => spell (g a)) a := by
  cases a <;> rfl

/-- Lists are spelled by what is spelled of their entries. -/
theorem Atom.list_map {α β : Type} (spell : β → List Atom) (g : α → β) (l : List α) :
    Atom.list spell (l.map g) = Atom.list (fun a => spell (g a)) l := by
  simp [Atom.list, List.flatMap_map]

theorem spellReference_map (id : ObjectId) :
    spellReference node (f id) = spellReference (fun id => node (f id)) id := rfl

/-- Outlines of renamed parts are spelled as if the parts had been spelled under the new ids. -/
theorem Outline.spelling_mapIds (o : Outline K) :
    (o.mapIds f).spelling word node = o.spelling word fun id => node (f id) := by
  cases o <;> simp [Outline.mapIds, Outline.spelling, Atom.list_map, spellReference_map]

theorem KeyFrame.spelling_mapIds (k : KeyFrame K) :
    (k.mapIds f).spelling word node = k.spelling word fun id => node (f id) := by
  have hvalue : (k.value.mapIds f).spelling word node =
      k.value.spelling word fun id => node (f id) := by
    cases k.value <;> rfl
  simp [KeyFrame.mapIds, KeyFrame.spelling, hvalue, Atom.option_map, spellReference_map]

/-- **A renamed content is spelled like the content with references spelled under the new ids.** -/
theorem Content.spelling_mapIds (c : Content K) :
    (c.mapIds f).spelling word node = c.spelling word fun id => node (f id) := by
  cases c <;>
    simp [Content.mapIds, Content.spelling, Outline.spelling_mapIds, KeyFrameAnimation.mapIds,
      KeyFrameAnimation.spelling, KeyFrame.spelling_mapIds, ExpressionAnimation.mapIds,
      ExpressionAnimation.spelling, Parameter.spelling, Atom.option_map, Atom.list_map,
      spellReference_map]

/-- An object is spelled by kind, content and animators, and only references depend on ids. -/
theorem Object.spelling_mapIds (o : Object K) :
    (o.mapIds f).spelling word node = o.spelling word fun id => node (f id) := by
  simp [Object.mapIds, Object.spelling, Object.kind, Attachments.mapIds, Content.spelling_mapIds,
    Animator.mapIds, Animator.spelling, Atom.list_map, Atom.option_map, spellReference_map]

end Renamed

end Diorama
