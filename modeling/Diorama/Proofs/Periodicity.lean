/-
  The same picture again.

  Time enters a picture in one place: the progress of a key frame animation, which is a remainder
  modulo its duration.  Everything else that is sampled of an object, its place, its opacity and
  visibility, its colours, its outline and how much of it is drawn, is put together from the values
  of its animations.  So two times are alike for a scene if every animation that the root reaches
  has come equally far at both (`Scene.InStep`), and each lemma follows one function of the sampler
  from what it reads at one time to what it reads at the other.

  Nothing is asked of the scalars, and an error is the same error at both times.
-/
import Mathlib
import Diorama.Proofs.TreeSampling
import Diorama.Scene.Index

namespace Diorama

variable {K : Type} [Scalar K]

/-- Times that are congruent modulo the duration are the same to an animation; without a duration
all times are. -/
theorem KeyFrameAnimation.progress_eq {a : KeyFrameAnimation K} {t t' : Int64}
    (h : 0 < a.duration → t.toInt ≡ t'.toInt [ZMOD a.duration.toInt]) :
    a.progress t = a.progress t' := by
  unfold progress
  split
  · rename_i hpos
    rw [h hpos]
  · rfl

namespace Scene

variable {s : Scene K} {t t' : Int64}

/-- Every reachable animation has come equally far at the two times. -/
def InStep (s : Scene K) (t t' : Int64) : Prop :=
  ∀ id ∈ s.reachable, ∀ o a, s.get? id = some o → o.content = .keyFrameAnimation a →
    a.progress t = a.progress t'

omit [Scalar K] in
/-- Two runs that look up the same object have to go on alike only if there is one. -/
theorem resolve_bind_congr {α : Type} {holder id : ObjectId} {f g : Object K → Except SceneError α}
    (h : ∀ o, s.get? id = some o → f o = g o) :
    (s.resolve holder id >>= f) = (s.resolve holder id >>= g) := by
  cases hget : s.get? id with
  | none => simp only [resolve, hget]; rfl
  | some o => rw [resolve_bind hget, resolve_bind hget, h o hget]

omit [Scalar K] in
/-- Expressions have no time. -/
theorem expressionsOf_eq (t t' : Int64) (id : ObjectId) (o : Object K) :
    Moment.expressionsOf ⟨s, t⟩ id o = Moment.expressionsOf ⟨s, t'⟩ id o :=
  rfl

namespace InStep

/-! ## Animated properties -/

section

variable (h : s.InStep t t') {id : ObjectId} {o : Object K} (hid : id ∈ s.reachable)
  (hget : s.get? id = some o)

include h hid hget

/-- An animated value is the same at both times, since every animation is where it was. -/
theorem animated_eq (property : String) :
    Moment.animated ⟨s, t⟩ id o property = Moment.animated ⟨s, t'⟩ id o property := by
  unfold Moment.animated
  cases hlast : o.attached.animators.reverse.find? fun a => a.target = property with
  | none => rfl
  | some animator =>
    have hmem : animator ∈ o.attached.animators := by
      simpa using List.mem_of_find?_eq_some hlast
    refine resolve_bind_congr fun x hx => ?_
    have hreach :=
      mem_reachable_of_refers hid (refers_of_get? hget (o.animation_mem_targets hmem)) hx
    cases hcontent : x.content with
    | keyFrameAnimation a => simp only [Moment.valueOf, h _ hreach x a hx hcontent]
    | _ => rfl

/-- A transform is the same at both times. -/
theorem shapeMatrix_eq (transform : ShapeTransform K) :
    Moment.shapeMatrix ⟨s, t⟩ id o transform = Moment.shapeMatrix ⟨s, t'⟩ id o transform := by
  simp only [Moment.shapeMatrix, Moment.vector2, Moment.rotation, Moment.scalar,
    h.animated_eq hid hget]

theorem visualState_eq (v : Visual K) :
    Moment.visualState ⟨s, t⟩ id o v = Moment.visualState ⟨s, t'⟩ id o v := by
  simp only [Moment.visualState, Moment.vector3, Moment.rotation, Moment.scalar,
    h.animated_eq hid hget]

theorem trim_eq (trim : Trim K) :
    Moment.trim ⟨s, t⟩ id o trim = Moment.trim ⟨s, t'⟩ id o trim := by
  simp only [Moment.trim, Moment.scalar, h.animated_eq hid hget]

end

/-! ## Parts of a sprite -/

variable (h : s.InStep t t')

include h

/-- A brush is the same at both times, if it is reachable. -/
theorem brush_eq (holder : ObjectId) (id? : Option ObjectId)
    (hid : ∀ id o, id? = some id → s.get? id = some o → id ∈ s.reachable) :
    Moment.brush ⟨s, t⟩ holder id? = Moment.brush ⟨s, t'⟩ holder id? := by
  cases id? with
  | none => rfl
  | some id =>
    refine resolve_bind_congr fun o hget => ?_
    simp only [h.animated_eq (hid id o rfl hget) hget]
    rfl

/-- An outline is the same at both times, if its geometry is reachable. -/
theorem geometry_eq (holder : ObjectId) (id? : Option ObjectId)
    (hid : ∀ id o, id? = some id → s.get? id = some o → id ∈ s.reachable) :
    Moment.geometry ⟨s, t⟩ holder id? = Moment.geometry ⟨s, t'⟩ holder id? := by
  cases id? with
  | none => rfl
  | some id =>
    refine resolve_bind_congr fun o hget => ?_
    have hreach := hid id o rfl hget
    simp only [Moment.vector2, h.animated_eq hreach hget, h.trim_eq hreach hget]
    rfl

/-- A sprite is the same at both times. -/
theorem sprite_eq {id : ObjectId} {o : Object K} {sprite : Sprite K} (hid : id ∈ s.reachable)
    (hget : s.get? id = some o) (ho : o.content = .spriteShape sprite)
    (around : Moment.Surroundings K) :
    Moment.sprite ⟨s, t⟩ id o sprite around = Moment.sprite ⟨s, t'⟩ id o sprite around := by
  have hheld : ∀ ref ∈ o.content.references, ∀ x,
      s.get? ref.target = some x → ref.target ∈ s.reachable :=
    fun ref href x =>
      mem_reachable_of_refers hid (refers_of_get? hget (o.mem_targets_of_mem_references href))
  rw [ho] at hheld
  have hgeometry := h.geometry_eq id sprite.geometry fun g x hg =>
    hheld ⟨.geometry, g⟩ (by simp [Content.references, hg, Reference.one]) x
  have hfill := h.brush_eq id sprite.fillBrush fun b x hb =>
    hheld ⟨.fillBrush, b⟩ (by simp [Content.references, hb, Reference.one]) x
  have hstroke := h.brush_eq id sprite.strokeBrush fun b x hb =>
    hheld ⟨.strokeBrush, b⟩ (by simp [Content.references, hb, Reference.one]) x
  simp only [Moment.sprite, Moment.scalar, h.shapeMatrix_eq hid hget, hgeometry, hfill, hstroke,
    h.animated_eq hid hget]

/-! ## The tree -/

/-- **An object is drawn alike at both times**, with all that it holds. -/
theorem visit_eq (depth : Nat) :
    ∀ (holder id : ObjectId) (above : Moment.Surroundings K),
      (∀ o, s.get? id = some o → id ∈ s.reachable) →
      Moment.visit ⟨s, t⟩ depth holder id above = Moment.visit ⟨s, t'⟩ depth holder id above := by
  induction depth with
  | zero =>
    intro holder id above _
    rw [Moment.visit, Moment.visit]
  | succ depth ih =>
    intro holder id above hid
    cases hget : s.get? id with
    | none =>
      rw [Moment.visit, Moment.visit]
      refine resolve_bind_congr fun o ho => ?_
      rw [hget] at ho
      cases ho
    | some o =>
      have hreach := hid o hget
      -- children are reachable, so the induction hypothesis is for them
      have hinside : ∀ around, Moment.gather ⟨s, t⟩ depth id o.content.children around =
          Moment.gather ⟨s, t'⟩ depth id o.content.children around := by
        intro around
        have hrun : (o.content.children.mapM fun c => Moment.visit ⟨s, t⟩ depth id c around) =
            o.content.children.mapM fun c => Moment.visit ⟨s, t'⟩ depth id c around := by
          refine mapM_congr fun c hc => ?_
          refine ih id c around fun x hx => ?_
          exact mem_reachable_of_refers hreach
            (refers_of_get? hget (o.mem_targets_of_mem_children hc)) hx
        simp only [Moment.gather, hrun]
      have hscene : ∀ time, (Moment.mk s time).scene.get? id = some o := fun _ => hget
      cases ho : o.content with
      | containerVisual v cs =>
        simp only [ho, Content.children] at hinside
        simp only [Moment.visit_visual (hscene _) (.inl ho), expressionsOf_eq t t',
          h.visualState_eq hreach hget, hinside]
      | shapeVisual v cs =>
        simp only [ho, Content.children] at hinside
        simp only [Moment.visit_visual (hscene _) (.inr ho), expressionsOf_eq t t',
          h.visualState_eq hreach hget, hinside]
      | containerShape transform cs =>
        simp only [ho, Content.children] at hinside
        simp only [Moment.visit_containerShape (hscene _) ho, expressionsOf_eq t t',
          h.shapeMatrix_eq hreach hget, hinside]
      | spriteShape sprite =>
        simp only [Moment.visit_sprite (hscene _) ho, expressionsOf_eq t t',
          h.sprite_eq hreach hget ho]
      -- anything else is refused before the time matters
      | _ => simp only [Moment.visit, resolve_bind hget, ho, expressionsOf_eq t t']

end InStep

/-- **Pictures are periodic.**  A scene has the same picture at two times, or the same error, if
they are congruent modulo the duration of every reachable animation that has one.  The times may be
negative and the durations different ones; an animation whose duration is zero or negative asks for
nothing. -/
theorem sampleAt_periodic {t t' : Int64}
    (h : ∀ id ∈ s.reachable, ∀ o a, s.get? id = some o → o.content = .keyFrameAnimation a →
      0 < a.duration → t.toInt ≡ t'.toInt [ZMOD a.duration.toInt]) :
    s.sampleAt t = s.sampleAt t' := by
  have hstep : s.InStep t t' := fun id hid o a hget ho =>
    KeyFrameAnimation.progress_eq (h id hid o a hget ho)
  exact hstep.visit_eq _ _ _ _ fun _ => root_mem_reachable

end Scene

/-! ## Fractions -/

/-- The sine of an angle in degrees at quarter turns. -/
def quarterSineRat (x : Rat) : Rat :=
  if x.floor % 360 = 90 then 1 else if x.floor % 360 = 270 then -1 else 0

/-- Fractions as scalars, with angles taken to the quarter turn. -/
instance Scalar.instRat : Scalar Rat where
  zero := 0
  one := 1
  add := Rat.add
  sub := Rat.sub
  mul := Rat.mul
  neg := Rat.neg
  div := Rat.div
  beq x y := decide (x = y)
  lt x y := x < y
  le x y := x ≤ y
  decidableLT x y := inferInstanceAs (Decidable (x < y))
  decidableLE x y := inferInstanceAs (Decidable (x ≤ y))
  ofInt n := n
  sin := quarterSineRat
  cos x := quarterSineRat (x + 90)
  degrees x := x
  floor x := x.floor
  toByte x := UInt8.ofNat x.floor.toNat
  epsilon := 1 / 8388608
  tolerance := 1 / 1000000
  word x := UInt32.ofNat x.num.natAbs

/-- A sprite with animations of four durations, two of them none. -/
def Scene.pendulum : Scene Rat where
  objects := #[
    { content := .shapeVisual {} [⟨1⟩]
      attached := { animators := [⟨"Opacity", ⟨3⟩, none⟩] } },
    { content := .spriteShape { geometry := some ⟨2⟩ }
      attached := { animators := [⟨"StrokeThickness", ⟨4⟩, none⟩,
        ⟨"Offset", ⟨5⟩, none⟩] } },
    { content := .ellipseGeometry {} none none
      attached := { animators := [⟨"Radius", ⟨6⟩, none⟩] } },
    { content := .keyFrameAnimation {
        duration := 100
        frames :=
          [{ progress := 0, value := .scalar 0 }, { progress := 1, value := .scalar 1 }] } },
    { content := .keyFrameAnimation {
        duration := 150
        frames := [{ progress := 0, value := .scalar 2 },
          { progress := 1, value := .scalar 17, easing := some ⟨7⟩ }] } },
    { content := .keyFrameAnimation {
        kind := .vector2, duration := 0, frames :=
          [{ progress := 0, value := .vector2 ⟨5, 6⟩ }] } },
    { content := .keyFrameAnimation {
        kind := .vector2, duration := -7, frames :=
          [{ progress := 0, value := .vector2 ⟨8, 9⟩ }] } },
    { content := .stepEasing (some 3) none none }]

/-- One sample of the pendulum, which differs by its opacity and its thickness. -/
def Scene.pendulumSample (opacity thickness : Rat) : Sample Rat where
  transform := ⟨1, 0, 0, 1, 5, 6⟩
  opacity
  geometry := .ellipse ⟨0, 0⟩ ⟨8, 9⟩
  trim := ⟨0, 1, 0⟩
  fill := none
  stroke := none
  strokeThickness := thickness
  expressions := []

theorem Scene.pendulum_periodic :
    (∃ ix, Index.build pendulum = .ok ix) ∧
    (∀ id ∈ pendulum.reachable, ∀ o a, pendulum.get? id = some o →
      o.content = .keyFrameAnimation a → 0 < a.duration →
      (-10 : Int64).toInt ≡ (290 : Int64).toInt [ZMOD a.duration.toInt]) ∧
    pendulum.sampleAt 290 = .ok [pendulumSample (9 / 10) 12] ∧
    pendulum.sampleAt 0 = .ok [pendulumSample 0 2] := by
  have hlist : pendulum.reachable = [⟨0⟩, ⟨1⟩, ⟨2⟩, ⟨6⟩, ⟨4⟩, ⟨7⟩, ⟨5⟩, ⟨3⟩] := by cbv
  have htimes : ∀ id ∈ pendulum.reachable, ∀ o a, pendulum.get? id = some o →
      o.content = .keyFrameAnimation a → 0 < a.duration →
      (-10 : Int64).toInt ≡ (290 : Int64).toInt [ZMOD a.duration.toInt] := by
    intro id hid o a hget ho
    rw [hlist] at hid
    simp only [List.mem_cons, List.not_mem_nil, or_false] at hid
    rcases hid with
      rfl | rfl | rfl | rfl | rfl | rfl | rfl | rfl <;> cases hget <;> cases ho <;> decide
  have hbefore : pendulum.sampleAt (-10) = .ok [pendulumSample (9 / 10) 12] := by cbv
  refine ⟨⟨_, by cbv⟩, htimes, ?_, by cbv⟩
  rw [← sampleAt_periodic htimes]
  exact hbefore

end Diorama
