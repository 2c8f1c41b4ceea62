/-
  Counterparts look the same.

  If one scene mirrors another, then everything that sampling reads of an object and of what it
  refers to comes out alike in the two: the values of animated properties, matrices, brushes,
  outlines and their drawn parts, and expressions.  Each lemma follows the run of one function of
  the sampler and ends with `Agree`: both runs give related results, or both fail.

  Outlines are followed to a depth that depends on the size of the scene, and the two sizes may
  differ.  What the two runs have in common is the rank: it is below either depth at the start, and
  it drops at every reference (`flatten_agree`).
-/
import Diorama.Proofs.Counterparts
import Diorama.Proofs.Outcome

namespace Diorama

/-! ## What objects refer to -/

section

variable {K : Type} {o : Object K}

theorem Object.mem_targets_of_mem_references {ref : Reference} (h : ref ∈ o.content.references) :
    ref.target ∈ o.targets :=
  List.mem_map_of_mem (List.mem_append_left _ h)

theorem Object.animation_mem_targets {a : Animator} (h : a ∈ o.attached.animators) :
    a.animation ∈ o.targets := by
  obtain ⟨i, hi⟩ := List.mem_iff_getElem?.mp h
  have href : (⟨.animation i, a.animation⟩ : Reference) ∈ o.animatorReferences :=
    List.mem_flatMap.mpr ⟨(a, i), List.mk_mem_zipIdx_iff_getElem?.mpr hi, List.mem_cons_self⟩
  exact List.mem_map_of_mem (f := (·.target)) (List.mem_append_right _ href)

theorem Reference.target_mem_one {slot : Slot} {id : ObjectId} :
    ⟨slot, id⟩ ∈ Reference.one slot (some id) := by
  simp [Reference.one]

theorem Reference.map_target_many (slot : Nat → Slot) (ids : List ObjectId) :
    (Reference.many slot ids).map (·.target) = ids := by
  rw [Reference.many, List.map_map]
  exact List.zipIdx_map_fst 0 ids

theorem Object.child_mem_targets (slot : Nat → Slot) {ids : List ObjectId} {id : ObjectId}
    (hsub : ∀ ref ∈ Reference.many slot ids, ref ∈ o.content.references) (h : id ∈ ids) :
    id ∈ o.targets := by
  obtain ⟨i, hi⟩ := List.mem_iff_getElem?.mp h
  have href : (⟨slot i, id⟩ : Reference) ∈ Reference.many slot ids :=
    List.mem_map.mpr ⟨(id, i), List.mk_mem_zipIdx_iff_getElem?.mpr hi, rfl⟩
  exact o.mem_targets_of_mem_references (hsub _ href)

/-- What a key frame of an animation refers to. -/
theorem Object.frame_mem_targets {a : KeyFrameAnimation K} {k : KeyFrame K} {id : ObjectId}
    (ho : o.content = .keyFrameAnimation a) (hk : k ∈ a.frames)
    (hid : k.value = .path id ∨ k.easing = some id) : id ∈ o.targets := by
  obtain ⟨i, hi⟩ := List.mem_iff_getElem?.mp hk
  have hframe : ∃ ref ∈ Reference.ofKeyFrame k i, ref.target = id := by
    rcases hid with h | h
    · exact ⟨⟨.keyFramePath i, id⟩, by simp [Reference.ofKeyFrame, h], rfl⟩
    · exact ⟨⟨.keyFrameEasing i, id⟩, by simp [Reference.ofKeyFrame, h, Reference.one], rfl⟩
  obtain ⟨ref, href, rfl⟩ := hframe
  refine o.mem_targets_of_mem_references ?_
  rw [ho]
  exact List.mem_flatMap.mpr ⟨(k, i), List.mk_mem_zipIdx_iff_getElem?.mpr hi, href⟩

end

/-! ## Settings and samples -/

/-- Settings of a shape that place it alike. -/
structure ShapeTransform.Like {K : Type} [Scalar K] (r : K → K → Prop) (t t' : ShapeTransform K) :
    Prop where
  centerPoint : LikeOr (Vec2.Like r) .zero t.centerPoint t'.centerPoint
  offset : LikeOr (Vec2.Like r) .zero t.offset t'.offset
  scale : LikeOr (Vec2.Like r) .one t.scale t'.scale
  rotation : LikeOr r 0 t.rotation t'.rotation
  matrix : LikeOr (Matrix3x2.Like r) .identity t.matrix t'.matrix

/-- Settings of a visual that place and show it alike. -/
structure Visual.Like {K : Type} [Scalar K] (r : K → K → Prop) (v v' : Visual K) : Prop where
  centerPoint : LikeOr (Vec3.Like r) .zero v.centerPoint v'.centerPoint
  offset : LikeOr (Vec3.Like r) .zero v.offset v'.offset
  scale : LikeOr (Vec3.Like r) .one v.scale v'.scale
  rotation : LikeOr r 0 v.rotation v'.rotation
  matrix : LikeOr (Matrix4x4.Like r) .identity v.matrix v'.matrix
  opacity : LikeOr r 1 v.opacity v'.opacity
  isVisible : LikeOr Eq true v.isVisible v'.isVisible

/-- What a sprite draws besides its place. -/
structure Sprite.Counterpart {K : Type} [Scalar K] (r : K → K → Prop) (f : ObjectId → ObjectId)
    (a b : Sprite K) : Prop where
  geometry : b.geometry = a.geometry.map f
  fillBrush : b.fillBrush = a.fillBrush.map f
  strokeBrush : b.strokeBrush = a.strokeBrush.map f
  thickness : LikeOr r 1 a.stroke.thickness b.stroke.thickness

/-- The same outline with related points. -/
inductive OutlineSample.Like {K : Type} (r : K → K → Prop) :
    OutlineSample K → OutlineSample K → Prop
  | none : OutlineSample.Like r .none .none
  | ellipse {c c' d d' : Vec2 K} : c.Like r c' → d.Like r d' →
      OutlineSample.Like r (.ellipse c d) (.ellipse c' d')
  | rectangle {o o' d d' : Vec2 K} : o.Like r o' → d.Like r d' →
      OutlineSample.Like r (.rectangle o d) (.rectangle o' d')
  | roundedRectangle {o o' d d' c c' : Vec2 K} : o.Like r o' → d.Like r d' → c.Like r c' →
      OutlineSample.Like r (.roundedRectangle o d c) (.roundedRectangle o' d' c')
  | path (mode : FillMode) {gs gs' : List (Figure K)} : List.Forall₂ (Figure.Like r) gs gs' →
      OutlineSample.Like r (.path mode gs) (.path mode gs')

/-- The same fill mode, and related figures. -/
def FiguresLike {K : Type} (r : K → K → Prop) (x y : FillMode × List (Figure K)) : Prop :=
  x.1 = y.1 ∧ List.Forall₂ (Figure.Like r) x.2 y.2

/-- The same part of an outline with related ends. -/
structure TrimSample.Like {K : Type} (r : K → K → Prop) (a b : TrimSample K) : Prop where
  start : r a.start b.start
  stop : r a.stop b.stop
  offset : r a.offset b.offset

/-- An outline, its drawn part and expressions that are alike. -/
def OutlineLike {K : Type} (r : K → K → Prop)
    (x y : OutlineSample K × TrimSample K × List String) : Prop :=
  x.1.Like r y.1 ∧ x.2.1.Like r y.2.1 ∧ x.2.2 = y.2.2

/-- Samples that look the same.  How their places are related is told apart from the rest: two
scenes may agree on one and not on the other. -/
structure Sample.Like {K : Type} (T : Matrix3x2 K → Matrix3x2 K → Prop) (r : K → K → Prop)
    (a b : Sample K) : Prop where
  transform : T a.transform b.transform
  opacity : r a.opacity b.opacity
  geometry : a.geometry.Like r b.geometry
  trim : a.trim.Like r b.trim
  fill : a.fill = b.fill
  stroke : a.stroke = b.stroke
  strokeThickness : r a.strokeThickness b.strokeThickness
  expressions : a.expressions = b.expressions

theorem OutlineSample.Like.eq {K : Type} {a b : OutlineSample K} (h : a.Like Eq b) : a = b := by
  cases h with
  | none => rfl
  | ellipse hc hd => rw [hc.eq, hd.eq]
  | rectangle ho hd => rw [ho.eq, hd.eq]
  | roundedRectangle ho hd hc => rw [ho.eq, hd.eq, hc.eq]
  | path mode hgs =>
    have heq := hgs.imp fun _ _ => Figure.Like.eq
    rw [List.forall₂_eq_eq_eq] at heq
    rw [heq]

theorem TrimSample.Like.eq {K : Type} {a b : TrimSample K} (h : a.Like Eq b) : a = b := by
  obtain ⟨start, stop, offset⟩ := a
  obtain ⟨rfl, rfl, rfl⟩ := h
  rfl

/-! ## Two scenes -/

/-- Objects of a set refer to objects of the set that have a lower rank; no rank reaches the size of
the scene. -/
structure Scene.Ranked {K : Type} (A : ObjectId → Prop) (rank : ObjectId → Nat) (s : Scene K) :
    Prop where
  object {id : ObjectId} : A id → ∃ o, s.get? id = some o
  closed {a b : ObjectId} : A a → s.Refers a b → A b
  descends {a b : ObjectId} : A a → s.Refers a b → rank b < rank a
  bounded {id : ObjectId} : A id → rank id < s.size

/-- Every object of a set has a counterpart in another scene. -/
structure Scene.Mirrors {K : Type} [Scalar K] (r : K → K → Prop) (f : ObjectId → ObjectId)
    (A : ObjectId → Prop) (rank : ObjectId → Nat) (s s' : Scene K) : Prop where
  ranked : s.Ranked A rank
  bounded {id : ObjectId} : A id → rank id < s'.size
  counterpart {id : ObjectId} {o : Object K} : A id → s.get? id = some o →
    ∃ o', s'.get? (f id) = some o' ∧ o.Counterpart r f o'

/-- An object of the set and its counterpart. -/
structure Facing {K : Type} [Scalar K] (r : K → K → Prop) (f : ObjectId → ObjectId)
    (A : ObjectId → Prop) (s s' : Scene K) (id : ObjectId) (o o' : Object K) : Prop where
  mem : A id
  left : s.get? id = some o
  right : s'.get? (f id) = some o'
  like : o.Counterpart r f o'

namespace Scene

theorem resolve_bind {K α : Type} {s : Scene K} {id : ObjectId} {o : Object K}
    (h : s.get? id = some o) (holder : ObjectId) (next : Object K → Except SceneError α) :
    (s.resolve holder id >>= next) = next o := by
  simp only [resolve, h]
  rfl

end Scene

section

open Scalar (Respects)

variable {K : Type} [Scalar K] {r : K → K → Prop} [Respects r] {f : ObjectId → ObjectId}
  {A : ObjectId → Prop} {rank : ObjectId → Nat} {s s' : Scene K}

omit [Respects r] in
theorem Scene.Mirrors.facing (h : s.Mirrors r f A rank s') {id : ObjectId} (hid : A id) :
    ∃ o o', Facing r f A s s' id o o' := by
  obtain ⟨o, ho⟩ := h.ranked.object hid
  obtain ⟨o', ho', hlike⟩ := h.counterpart hid ho
  exact ⟨o, o', hid, ho, ho', hlike⟩

omit [Respects r] in
/-- What an object of the set refers to is in the set, and lower. -/
theorem Scene.Mirrors.target (h : s.Mirrors r f A rank s') {id t : ObjectId} {o o' : Object K}
    (hf : Facing r f A s s' id o o') (ht : t ∈ o.targets) : A t ∧ rank t < rank id :=
  ⟨h.ranked.closed hf.mem (refers_of_get? hf.left ht),
    h.ranked.descends hf.mem (refers_of_get? hf.left ht)⟩

theorem ShapeTransform.Like.refl (t : ShapeTransform K) : t.Like r t :=
  ⟨.refl Vec2.Like.refl _ _, .refl Vec2.Like.refl _ _, .refl Vec2.Like.refl _ _,
    .refl Respects.refl _ _, .refl Matrix3x2.Like.refl _ _⟩

theorem Visual.Like.refl (v : Visual K) : v.Like r v :=
  ⟨.refl Vec3.Like.refl _ _, .refl Vec3.Like.refl _ _, .refl Vec3.Like.refl _ _,
    .refl Respects.refl _ _, .refl Matrix4x4.Like.refl _ _, .refl Respects.refl _ _,
    .refl (fun _ => rfl) _ _⟩

theorem ShapeTransform.Like.toMatrix {t t' : ShapeTransform K} (h : t.Like r t') :
    t.toMatrix.Like r t'.toMatrix := by
  have hback :
      ((t.centerPoint.getD .zero).map (-·)).Like r ((t'.centerPoint.getD .zero).map (-·)) :=
    ⟨Respects.neg h.centerPoint.x, Respects.neg h.centerPoint.y⟩
  exact (((((Matrix3x2.Like.shift hback).andThen (.scale h.scale)).andThen
    (.rotation h.rotation)).andThen (.shift h.centerPoint)).andThen (.shift h.offset)).andThen
    h.matrix

theorem Visual.Like.toMatrix {v v' : Visual K} (h : v.Like r v') :
    v.toMatrix.Like r v'.toMatrix := by
  have hback :
      ((v.centerPoint.getD .zero).map (-·)).Like r ((v'.centerPoint.getD .zero).map (-·)) :=
    ⟨Respects.neg h.centerPoint.x, Respects.neg h.centerPoint.y, Respects.neg h.centerPoint.z⟩
  exact (((((Matrix4x4.Like.shift hback).andThen (.scale h.scale)).andThen
    (.rotation h.rotation)).andThen (.shift h.centerPoint)).andThen (.shift h.offset)).andThen
    h.matrix

/-! ## Animated values -/

omit [Scalar K] [Respects r] in
theorem KeyFrameValue.Counterpart.literal? {v v' : KeyFrameValue K}
    (h : v.Counterpart r f A v') :
    Option.Rel (KeyFrameValue.Counterpart r f A) v.literal? v'.literal? := by
  cases h with
  | expression text => exact .none
  | scalar h => exact .some (.scalar h)
  | vector2 h => exact .some (.vector2 h)
  | vector3 h => exact .some (.vector3 h)
  | vector4 h => exact .some (.vector4 h)
  | color c => exact .some (.color c)
  | boolean b => exact .some (.boolean b)
  | path h => exact .some (.path h)

/-- A value that is held until the end. -/
theorem KeyFrameValue.Counterpart.held {v v' w w' : KeyFrameValue K} {t t' : K}
    (hv : v.Counterpart r f A v') (hw : w.Counterpart r f A w') (ht : r t t') :
    Option.Rel (KeyFrameValue.Counterpart r f A) (some (if t < 1 then v else w))
      (some (if t' < 1 then v' else w')) :=
  .some (rel_ite (Respects.lt ht (Respects.refl 1)) hv hw)

/-- Values are interpolated alike.  Two values of one kind give a value of that kind, an expression
gives none, and everything else is held. -/
theorem KeyFrameValue.Counterpart.interpolate? {v v' w w' : KeyFrameValue K} {t t' : K}
    (hv : v.Counterpart r f A v') (hw : w.Counterpart r f A w') (ht : r t t') :
    Option.Rel (KeyFrameValue.Counterpart r f A) (v.interpolate? w t) (v'.interpolate? w' t') := by
  have hheld := hv.held hw ht
  cases hv with
  | scalar hx =>
    cases hw with
    | scalar hy => exact .some (.scalar (Respects.lerp hx hy ht))
    | expression => exact .none
    | _ => exact hheld
  | vector2 hx =>
    cases hw with
    | vector2 hy => exact .some (.vector2 (hx.lerp hy ht))
    | expression => exact .none
    | _ => exact hheld
  | vector3 hx =>
    cases hw with
    | vector3 hy => exact .some (.vector3 (hx.lerp hy ht))
    | expression => exact .none
    | _ => exact hheld
  | vector4 hx =>
    cases hw with
    | vector4 hy => exact .some (.vector4 (hx.lerp hy ht))
    | expression => exact .none
    | _ => exact hheld
  | color c =>
    cases hw with
    | color d =>
      simp only [KeyFrameValue.interpolate?, Color.mix_eq c d ht]
      exact .some (.color _)
    | expression => exact .none
    | _ => exact hheld
  | boolean b =>
    cases hw with
    | expression => exact .none
    | _ => exact hheld
  | path hp =>
    cases hw with
    | expression => exact .none
    | _ => exact hheld
  | expression text => cases hw <;> exact .none

theorem Content.Counterpart.ease {e e' : Content K} {t t' : K} (h : e.Counterpart r f e')
    (ht : r t t') : r (e.ease t) (e'.ease t') := by
  cases h with
  | cubicBezierEasing hc hd => exact bezierEase_like hc hd ht
  | stepEasing _ _ _ _ hn =>
    show r (stepEase _ t) (stepEase _ t')
    rw [hn]
    exact stepEase_like _ ht
  | _ => exact ht

omit [Scalar K] [Respects r] in
theorem rel_getElem? {α β : Type} {R : α → β → Prop} {as : List α} {bs : List β}
    (h : List.Forall₂ R as bs) (i : Nat) : Option.Rel R as[i]? bs[i]? := by
  induction h generalizing i with
  | nil => exact .none
  | cons hab _ ih =>
    cases i with
    | zero => simpa using Option.Rel.some hab
    | succ i => simpa using ih i

namespace Scene.Mirrors

variable (h : s.Mirrors r f A rank s') {id : ObjectId} {o o' : Object K}
  (hf : Facing r f A s s' id o o') (time : Int64)

include h hf

/-- The value of an animation. -/
theorem valueOf_agree {a a' : KeyFrameAnimation K} (ho : o.content = .keyFrameAnimation a)
    (ha : a.Counterpart r f a') :
    Agree (Option.Rel (KeyFrameValue.Counterpart r f A)) (Moment.valueOf ⟨s, time⟩ id a)
      (Moment.valueOf ⟨s', time⟩ (f id) a') := by
  have hprogress : a'.progress time = a.progress time := by
    simp only [KeyFrameAnimation.progress, ha.duration]
  have hpoints : List.Forall₂ r (a.frames.map (·.progress)) (a'.frames.map (·.progress)) := by
    rw [List.forall₂_map_left_iff, List.forall₂_map_right_iff]
    exact ha.frames.imp fun _ _ hk => hk.progress
  have hspan := Span.find_like (r := r) (Respects.refl (a.progress time)) hpoints
  have hframes : List.Forall₂ (fun k k' => k ∈ a.frames ∧ k.Counterpart r f k') a.frames
      a'.frames := (List.forall₂_and_left _ _).mpr ⟨fun _ hk => hk, ha.frames⟩
  -- the values that key frames hold are in the set
  have hvalue : ∀ {k k' : KeyFrame K}, k ∈ a.frames ∧ k.Counterpart r f k' →
      k.value.Counterpart r f A k'.value := fun hk =>
    hk.2.value.inside fun p hp => (h.target hf (o.frame_mem_targets ho hk.1 (.inl hp))).1
  simp only [Moment.valueOf, hprogress]
  generalize Span.find (a.progress time) (a.frames.map (·.progress)) = span at hspan ⊢
  generalize Span.find (a.progress time) (a'.frames.map (·.progress)) = span' at hspan ⊢
  rw [← hspan.lo, ← hspan.hi]
  have hlo := rel_getElem? hframes span.lo
  have hhi := rel_getElem? hframes span.hi
  generalize a.frames[span.lo]? = here at hlo ⊢
  generalize a'.frames[span.lo]? = here' at hlo ⊢
  generalize a.frames[span.hi]? = next at hhi ⊢
  generalize a'.frames[span.hi]? = next' at hhi ⊢
  cases hlo with
  | none => exact .ok .none
  | some hhere =>
    cases hhi with
    | none => exact .ok .none
    | @some k k' hnext =>
      refine rel_ite Iff.rfl (.ok (hvalue hhere).literal?) ?_
      rw [hnext.2.easing]
      cases heasing : k.easing with
      | none => exact .ok ((hvalue hhere).interpolate? (hvalue hnext) hspan.fraction)
      | some e =>
        have he := (h.target hf (o.frame_mem_targets ho hnext.1 (.inr heasing))).1
        obtain ⟨easing, easing', hfe⟩ := h.facing he
        simp only [Option.map_some, resolve_bind hfe.left, resolve_bind hfe.right]
        exact .ok ((hvalue hhere).interpolate? (hvalue hnext)
          (hfe.like.content.ease hspan.fraction))

/-- The value that a property is animated to. -/
theorem animated_agree (property : String) :
    Agree (Option.Rel (KeyFrameValue.Counterpart r f A))
      (Moment.animated ⟨s, time⟩ id o property)
      (Moment.animated ⟨s', time⟩ (f id) o' property) := by
  have hfind : (o'.attached.animators.reverse.find? fun a => a.target = property) =
      (o.attached.animators.reverse.find? fun a => a.target = property).map (·.mapIds f) := by
    rw [hf.like.animators, ← List.map_reverse, List.find?_map]
    rfl
  simp only [Moment.animated, hfind]
  cases hlast : o.attached.animators.reverse.find? fun a => a.target = property with
  | none => exact .ok .none
  | some animator =>
    have hmem : animator ∈ o.attached.animators := by
      simpa using List.mem_of_find?_eq_some hlast
    obtain ⟨x, x', hx⟩ := h.facing (h.target hf (o.animation_mem_targets hmem)).1
    have hright : s'.get? (animator.mapIds f).animation = some x' := hx.right
    simp only [Option.map_some, resolve_bind hx.left, resolve_bind hright]
    obtain ⟨attached, content⟩ := x
    obtain ⟨attached', content'⟩ := x'
    have hcontent : content.Counterpart r f content' := hx.like.content
    cases hcontent with
    | keyFrameAnimation ha => exact h.valueOf_agree hx time rfl ha
    | _ => exact .ok .none

/-- A scalar property. -/
theorem scalar_agree {R : Option K → Option K → Prop}
    (hsome : ∀ x y, r x y → R (some x) (some y)) {own own' : Option K} (hown : R own own')
    (property : String) :
    Agree R (Moment.scalar ⟨s, time⟩ id o property own)
      (Moment.scalar ⟨s', time⟩ (f id) o' property own') := by
  refine (h.animated_agree hf time property).bind fun v v' hv => ?_
  cases hv with
  | none => exact .ok hown
  | some hv =>
    cases hv with
    | scalar hx => exact .ok (hsome _ _ hx)
    | _ => exact .ok hown

/-- A property that is a vector of the plane. -/
theorem vector2_agree {d : Vec2 K} {own own' : Option (Vec2 K)}
    (hown : LikeOr (Vec2.Like r) d own own') (property : String) :
    Agree (LikeOr (Vec2.Like r) d) (Moment.vector2 ⟨s, time⟩ id o property own)
      (Moment.vector2 ⟨s', time⟩ (f id) o' property own') := by
  refine (h.animated_agree hf time property).bind fun v v' hv => ?_
  cases hv with
  | none => exact .ok hown
  | some hv =>
    cases hv with
    | vector2 hx => exact .ok hx
    | _ => exact .ok hown

/-- A property that is a vector of space. -/
theorem vector3_agree {d : Vec3 K} {own own' : Option (Vec3 K)}
    (hown : LikeOr (Vec3.Like r) d own own') (property : String) :
    Agree (LikeOr (Vec3.Like r) d) (Moment.vector3 ⟨s, time⟩ id o property own)
      (Moment.vector3 ⟨s', time⟩ (f id) o' property own') := by
  refine (h.animated_agree hf time property).bind fun v v' hv => ?_
  cases hv with
  | none => exact .ok hown
  | some hv =>
    cases hv with
    | vector3 hx => exact .ok hx
    | _ => exact .ok hown

/-- A rotation. -/
theorem rotation_agree {own own' : Option K} (hown : LikeOr r 0 own own') :
    Agree (LikeOr r 0) (Moment.rotation ⟨s, time⟩ id o own)
      (Moment.rotation ⟨s', time⟩ (f id) o' own') := by
  refine (h.scalar_agree hf time (R := LikeOr r 0) (fun _ _ hx => hx) hown _).bind
    fun a a' ha => ?_
  refine (h.scalar_agree hf time (R := Option.Rel r) (fun _ _ hx => .some hx) .none _).bind
    fun b b' hb => ?_
  cases hb with
  | none => exact .ok ha
  | some hx => exact .ok (Respects.degrees hx)

omit [Respects r] in
/-- The expressions that drive an object. -/
theorem expressionsOf_agree :
    Agree Eq (Moment.expressionsOf ⟨s, time⟩ id o) (Moment.expressionsOf ⟨s', time⟩ (f id) o') := by
  simp only [Moment.expressionsOf, hf.like.animators]
  refine Agree.bind (R := List.Forall₂ Eq) ?_ fun found found' hfound => ?_
  · refine Agree.mapM (P := fun a a' => a ∈ o.attached.animators ∧ a' = a.mapIds f) ?_ ?_
    · exact forall₂_map_right fun a ha => ⟨ha, rfl⟩
    · rintro a _ ⟨ha, rfl⟩
      obtain ⟨x, x', hx⟩ := h.facing (h.target hf (o.animation_mem_targets ha)).1
      have hright : s'.get? (a.mapIds f).animation = some x' := hx.right
      simp only [resolve_bind hx.left, resolve_bind hright]
      obtain ⟨attached, content⟩ := x
      obtain ⟨attached', content'⟩ := x'
      have hcontent : content.Counterpart r f content' := hx.like.content
      cases hcontent with
      | expressionAnimation he =>
        refine .ok ?_
        rw [he]
        rfl
      | _ => exact .ok rfl
  · rw [List.forall₂_eq_eq_eq] at hfound
    exact .ok (congrArg List.flatten hfound)

/-! ## Places -/

/-- The transform of a shape. -/
theorem shapeMatrix_agree {t t' : ShapeTransform K} (ht : t.Like r t') :
    Agree (Matrix3x2.Like r) (Moment.shapeMatrix ⟨s, time⟩ id o t)
      (Moment.shapeMatrix ⟨s', time⟩ (f id) o' t') := by
  refine (h.vector2_agree hf time ht.centerPoint _).bind fun c c' hc => ?_
  refine (h.vector2_agree hf time ht.offset _).bind fun d d' hd => ?_
  refine (h.vector2_agree hf time ht.scale _).bind fun e e' he => ?_
  refine (h.rotation_agree hf time ht.rotation).bind fun a a' ha => ?_
  exact .ok (ShapeTransform.Like.toMatrix ⟨hc, hd, he, ha, ht.matrix⟩)

/-- The transform, opacity and visibility of a visual. -/
theorem visualState_agree {v v' : Visual K} (hv : v.Like r v') :
    Agree (fun x y => x.1.Like r y.1 ∧ r x.2.1 y.2.1 ∧ x.2.2 = y.2.2)
      (Moment.visualState ⟨s, time⟩ id o v) (Moment.visualState ⟨s', time⟩ (f id) o' v') := by
  refine (h.vector3_agree hf time hv.centerPoint _).bind fun c c' hc => ?_
  refine (h.vector3_agree hf time hv.offset _).bind fun d d' hd => ?_
  refine (h.vector3_agree hf time hv.scale _).bind fun e e' he => ?_
  refine (h.rotation_agree hf time hv.rotation).bind fun a a' ha => ?_
  refine (h.scalar_agree hf time (R := LikeOr r 1) (fun _ _ hx => hx) hv.opacity _).bind
    fun b b' hb => ?_
  refine (h.animated_agree hf time _).bind fun x x' hx => ?_
  have hplaced : Visual.Like r
      { v with centerPoint := c, offset := d, scale := e, rotation := a }
      { v' with centerPoint := c', offset := d', scale := e', rotation := a' } :=
    ⟨hc, hd, he, ha, hv.matrix, hv.opacity, hv.isVisible⟩
  refine .ok ⟨hplaced.toMatrix.flatten, hb, ?_⟩
  cases hx with
  | none => exact hv.isVisible
  | some hx =>
    cases hx with
    | boolean b => rfl
    | _ => exact hv.isVisible

/-! ## Brushes and outlines -/

omit hf in
/-- The colour of a brush and its expressions. -/
theorem brush_agree {id? : Option ObjectId} (hid : ∀ b, id? = some b → A b)
    (holder holder' : ObjectId) :
    Agree Eq (Moment.brush ⟨s, time⟩ holder id?)
      (Moment.brush ⟨s', time⟩ holder' (id?.map f)) := by
  cases id? with
  | none => exact .ok rfl
  | some b =>
    obtain ⟨x, x', hx⟩ := h.facing (hid b rfl)
    simp only [Option.map_some, Moment.brush, resolve_bind hx.left, resolve_bind hx.right]
    refine (h.expressionsOf_agree hx time).bind ?_
    rintro expressions _ rfl
    have hanimated := h.animated_agree hx time "Color"
    have hcontent := hx.like.content
    generalize x.content = content at hcontent ⊢
    generalize x'.content = content' at hcontent ⊢
    cases hcontent with
    | colorBrush c =>
      refine hanimated.bind fun v v' hv => ?_
      cases hv with
      | none => exact .ok rfl
      | some hv =>
        cases hv with
        | color d => exact .ok rfl
        | _ => exact .ok rfl
    | _ => exact .ok rfl

/-- The part of an outline that is drawn. -/
theorem trim_agree {t t' : Trim K} (ht : t.Like r t') :
    Agree (TrimSample.Like r) (Moment.trim ⟨s, time⟩ id o t)
      (Moment.trim ⟨s', time⟩ (f id) o' t') := by
  refine (h.scalar_agree hf time (R := LikeOr r 0) (fun _ _ hx => hx) ht.start _).bind
    fun a a' ha => ?_
  refine (h.scalar_agree hf time (R := LikeOr r 1) (fun _ _ hx => hx) ht.stop _).bind
    fun b b' hb => ?_
  refine (h.scalar_agree hf time (R := LikeOr r 0) (fun _ _ hx => hx) ht.offset _).bind
    fun c c' hc => ?_
  exact .ok ⟨ha, hb, hc⟩

omit hf time in
/-- **Outlines are followed alike.**  The depths may differ, as long as the rank is below both. -/
theorem flatten_agree (depth : Nat) :
    ∀ (depth' : Nat) (holder holder' id : ObjectId) (m m' : Matrix3x2 K), A id →
      rank id < depth → rank id < depth' → m.Like r m' →
      Agree (FiguresLike r) (s.flatten depth holder id m)
        (s'.flatten depth' holder' (f id) m') := by
  -- induction on the depth of the first scene; ranks bound both depths
  induction depth with
  | zero =>
    intro depth' holder holder' id m m' _ hlt
    exact absurd hlt (by omega)
  | succ depth ih =>
    intro depth' holder holder' id m m' hid hlt hlt' hm
    obtain ⟨depth', rfl⟩ : ∃ n, depth' = n + 1 := ⟨depth' - 1, by omega⟩
    obtain ⟨x, x', hx⟩ := h.facing hid
    simp only [Scene.flatten, resolve_bind hx.left, resolve_bind hx.right]
    -- nested outlines are ranked below the one they are in
    have htarget : ∀ {t : ObjectId}, t ∈ x.targets → A t ∧ rank t < depth ∧ rank t < depth' := by
      intro t ht
      obtain ⟨hA, hdrop⟩ := h.target hx ht
      exact ⟨hA, by omega, by omega⟩
    obtain ⟨attached, content⟩ := x
    obtain ⟨attached', content'⟩ := x'
    have hcontent : content.Counterpart r f content' := hx.like.content
    cases hcontent with
    | figures hmode hfigures =>
      refine .ok ⟨hmode, ?_⟩
      rw [List.forall₂_map_left_iff, List.forall₂_map_right_iff]
      exact hfigures.imp fun _ _ hg => hg.transform hm
    | group gs hmode =>
      have hparts : Agree (List.Forall₂ (FiguresLike r))
          (gs.mapM fun g => s.flatten depth id g m)
          ((gs.map f).mapM fun g => s'.flatten depth' (f id) g m') := by
        refine Agree.mapM (P := fun g g' => g ∈ gs ∧ g' = f g)
          (forall₂_map_right fun g hg => ⟨hg, rfl⟩) ?_
        rintro g _ ⟨hg, rfl⟩
        obtain ⟨hA, hd, hd'⟩ := htarget (Object.child_mem_targets .source (fun _ href => href) hg)
        exact ih depth' _ _ g m m' hA hd hd' hm
      refine hparts.bind fun parts parts' hparts => .ok ⟨hmode, List.rel_flatten ?_⟩
      rw [List.forall₂_map_left_iff, List.forall₂_map_right_iff]
      exact hparts.imp fun _ _ hp => hp.2
    | transformed g hown =>
      obtain ⟨hA, hd, hd'⟩ := htarget (Object.mem_targets_of_mem_references List.mem_cons_self)
      exact ih depth' _ _ g _ _ hA hd hd' (hown.andThen hm)
    | _ => exact .ok ⟨rfl, .nil⟩

omit hf in
/-- The figures of a path. -/
theorem path_agree (path? : Option ObjectId) (hpath : ∀ p, path? = some p → A p)
    (holder holder' : ObjectId) :
    Agree (OutlineSample.Like r) (Moment.path ⟨s, time⟩ holder path?)
      (Moment.path ⟨s', time⟩ holder' (path?.map f)) := by
  cases path? with
  | none => exact .ok .none
  | some p =>
    obtain ⟨x, x', hx⟩ := h.facing (hpath p rfl)
    -- wherever the figures come from, they are followed alike
    have hfrom : ∀ g, A g → Agree (OutlineSample.Like r)
        (s.flatten s.depthLimit p g .identity >>= fun y => pure (OutlineSample.path y.1 y.2))
        (s'.flatten s'.depthLimit (f p) (f g) .identity >>= fun y =>
          pure (OutlineSample.path y.1 y.2)) := by
      intro g hg
      have hdepth : rank g < s.depthLimit := Nat.lt_succ_of_lt (h.ranked.bounded hg)
      have hdepth' : rank g < s'.depthLimit := Nat.lt_succ_of_lt (h.bounded hg)
      refine (h.flatten_agree _ _ p (f p) g _ _ hg hdepth hdepth' (.refl _)).bind ?_
      rintro ⟨mode, gs⟩ ⟨_, gs'⟩ ⟨rfl, hgs⟩
      exact .ok (.path mode hgs)
    simp only [Option.map_some, Moment.path, resolve_bind hx.left, resolve_bind hx.right]
    obtain ⟨attached, content⟩ := x
    obtain ⟨attached', content'⟩ := x'
    have hcontent : content.Counterpart r f content' := hx.like.content
    cases hcontent with
    | path source =>
      cases source with
      | none => exact .ok .none
      | some g =>
        exact hfrom g (h.target hx (Object.mem_targets_of_mem_references List.mem_cons_self)).1
    | figures => exact hfrom p (hpath p rfl)
    | group => exact hfrom p (hpath p rfl)
    | transformed => exact hfrom p (hpath p rfl)
    | _ => exact .ok .none

omit hf in
/-- The outline of a geometry. -/
theorem geometry_agree {id? : Option ObjectId} (hid : ∀ g, id? = some g → A g)
    (holder holder' : ObjectId) :
    Agree (OutlineLike r) (Moment.geometry ⟨s, time⟩ holder id?)
      (Moment.geometry ⟨s', time⟩ holder' (id?.map f)) := by
  cases id? with
  | none => exact .ok ⟨.none, ⟨Respects.refl 0, Respects.refl 1, Respects.refl 0⟩, rfl⟩
  | some g =>
    obtain ⟨x, x', hx⟩ := h.facing (hid g rfl)
    have hvector : ∀ (property : String) {own own' : Option (Vec2 K)},
        LikeOr (Vec2.Like r) .zero own own' →
        Agree (Vec2.Like r)
          (Moment.vector2 ⟨s, time⟩ g x property own >>= fun v => pure (v.getD .zero))
          (Moment.vector2 ⟨s', time⟩ (f g) x' property own' >>= fun v => pure (v.getD .zero)) :=
      fun property _ _ hown => (h.vector2_agree hx time hown property).bind fun _ _ hv => .ok hv
    have hanimated := h.animated_agree hx time "Path"
    have hmem : ∀ ref ∈ x.content.references, A ref.target :=
      fun ref href => (h.target hx (x.mem_targets_of_mem_references href)).1
    simp only [Option.map_some, Moment.geometry, resolve_bind hx.left, resolve_bind hx.right]
    refine (h.expressionsOf_agree hx time).bind ?_
    rintro expressions _ rfl
    have hcontent := hx.like.content
    generalize x.content = content at hcontent hmem ⊢
    generalize x'.content = content' at hcontent ⊢
    cases hcontent with
    | ellipseGeometry ht hc hd =>
      refine (hvector _ hc).bind fun c c' hc => ?_
      refine (hvector _ hd).bind fun d d' hd => ?_
      refine (h.trim_agree hx time ht).bind fun t t' ht => ?_
      exact .ok ⟨.ellipse hc hd, ht, rfl⟩
    | rectangleGeometry ht ho hd =>
      refine (hvector _ ho).bind fun o o' ho => ?_
      refine (hvector _ hd).bind fun d d' hd => ?_
      refine (h.trim_agree hx time ht).bind fun t t' ht => ?_
      exact .ok ⟨.rectangle ho hd, ht, rfl⟩
    | roundedRectangleGeometry ht ho hd hc =>
      refine (hvector _ ho).bind fun o o' ho => ?_
      refine (hvector _ hd).bind fun d d' hd => ?_
      refine (hvector _ hc).bind fun c c' hc => ?_
      refine (h.trim_agree hx time ht).bind fun t t' ht => ?_
      exact .ok ⟨.roundedRectangle ho hd hc, ht, rfl⟩
    | @pathGeometry cut cut' own ht =>
      -- wherever the path comes from, its figures are followed alike
      have hfrom : ∀ path?, (∀ p, path? = some p → A p) → Agree (OutlineLike r)
          (Moment.path ⟨s, time⟩ g path? >>= fun outline =>
            Moment.trim ⟨s, time⟩ g x cut >>= fun t => pure (outline, t, expressions))
          (Moment.path ⟨s', time⟩ (f g) (path?.map f) >>= fun outline =>
            Moment.trim ⟨s', time⟩ (f g) x' cut' >>= fun t => pure (outline, t, expressions)) := by
        intro path? hpath
        refine (h.path_agree time path? hpath g (f g)).bind fun outline outline' houtline => ?_
        refine (h.trim_agree hx time ht).bind fun t t' ht => ?_
        exact .ok ⟨houtline, ht, rfl⟩
      have hown : ∀ p, own = some p → A p := by
        rintro p rfl
        exact hmem ⟨.path, p⟩ Reference.target_mem_one
      refine hanimated.bind fun v v' hv => ?_
      cases hv with
      | none => exact hfrom own hown
      | some hv =>
        cases hv with
        | @path p hp => exact hfrom (some p) (by rintro _ ⟨⟩; exact hp)
        | _ => exact hfrom own hown
    | _ => exact .error _ _

/-! ## Sprites -/

/-- **Sprites look the same.**  The places come out as the matrices of the two sprites say. -/
theorem sprite_agree {a b : Sprite K} (ho : o.content = .spriteShape a)
    (hab : a.Counterpart r f b) {around around' : Moment.Surroundings K}
    {T : Matrix3x2 K → Matrix3x2 K → Prop}
    (hplace : Agree (fun m m' => T (m.andThen around.world) (m'.andThen around'.world))
      (Moment.shapeMatrix ⟨s, time⟩ id o a.transform)
      (Moment.shapeMatrix ⟨s', time⟩ (f id) o' b.transform))
    (hopacity : r around.opacity around'.opacity)
    (hexpressions : around.expressions = around'.expressions) :
    Agree (Sample.Like T r) (Moment.sprite ⟨s, time⟩ id o a around)
      (Moment.sprite ⟨s', time⟩ (f id) o' b around') := by
  have hmem : ∀ ref ∈ o.content.references, A ref.target :=
    fun ref href => (h.target hf (o.mem_targets_of_mem_references href)).1
  rw [ho] at hmem
  have hgeometry : ∀ g, a.geometry = some g → A g := fun g hg =>
    hmem ⟨.geometry, g⟩ (by simp [Content.references, hg, Reference.one])
  have hfill : ∀ g, a.fillBrush = some g → A g := fun g hg =>
    hmem ⟨.fillBrush, g⟩ (by simp [Content.references, hg, Reference.one])
  have hstroke : ∀ g, a.strokeBrush = some g → A g := fun g hg =>
    hmem ⟨.strokeBrush, g⟩ (by simp [Content.references, hg, Reference.one])
  simp only [Moment.sprite, hab.geometry, hab.fillBrush, hab.strokeBrush]
  refine hplace.bind fun m m' hm => ?_
  refine (h.geometry_agree time hgeometry id (f id)).bind ?_
  rintro ⟨geometry, trim, outlined⟩ ⟨geometry', trim', _⟩ ⟨hgeometry, htrim, rfl⟩
  refine (h.brush_agree time hfill id (f id)).bind ?_
  rintro ⟨fill, filled⟩ _ rfl
  refine (h.brush_agree time hstroke id (f id)).bind ?_
  rintro ⟨stroke, stroked⟩ _ rfl
  refine (h.scalar_agree hf time (R := LikeOr r 1) (fun _ _ hx => hx) hab.thickness _).bind
    fun t t' ht => ?_
  refine .ok ⟨hm, hopacity, hgeometry, htrim, rfl, rfl, ht, ?_⟩
  simp only [hexpressions]

end Scene.Mirrors
end
end Diorama
