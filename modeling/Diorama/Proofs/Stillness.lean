/-
  What nothing drives.

  The reduction leaves alone what an animation moves.  It asks `animatesAny`, which looks at the
  targets of all animators and takes channels such as `Offset.X` into account; the sampler asks for
  one property at a time, by its name.  Here the two are brought together: where `animatesAny` finds
  nothing, the sampler finds every part of the transform as it is set, so the place of a shape or a
  visual is the matrix that its settings amount to (`shapeMatrix_still`, `visualState_still`).

  A container without shapes may carry animators all the same, and is dropped with them.  Nothing is
  lost as long as sampling them would not have failed, and in a scene whose references all lead to
  objects it does not (`Scene.Ranked.animated_succeeds`).

  The results are the three ways in which an object dissolves into what it holds.
-/
import Diorama.Proofs.TreeSampling

namespace Diorama

variable {K : Type} [Scalar K]

/-! ## Settings -/

omit [Scalar K] in
/-- A transform with no separate settings is a matrix at most. -/
theorem ShapeTransform.eq_matrix_of_not_isSeparate {t : ShapeTransform K}
    (h : t.isSeparate = false) : t = { matrix := t.matrix } := by
  obtain ⟨centerPoint, offset, scale, rotation, matrix⟩ := t
  simp only [isSeparate, Bool.or_eq_false_iff, Option.isSome_eq_false_iff,
    Option.isNone_iff_eq_none]
    at h
  obtain ⟨⟨⟨rfl, rfl⟩, rfl⟩, rfl⟩ := h
  rfl

omit [Scalar K] in
/-- A transform of which nothing is set is the one with nothing set. -/
theorem ShapeTransform.eq_of_isUnset {t : ShapeTransform K} (h : t.isUnset = true) : t = {} := by
  simp only [isUnset, Bool.and_eq_true, Bool.not_eq_true', Option.isNone_iff_eq_none] at h
  rw [eq_matrix_of_not_isSeparate h.1, h.2]

omit [Scalar K] in
/-- A visual of which nothing is set is the one with nothing set. -/
theorem Visual.eq_of_isUnset {v : Visual K} (h : v.isUnset = true) : v = {} := by
  obtain ⟨centerPoint, offset, scale, rotation, matrix, size, opacity, isVisible, clip⟩ := v
  simp only [isUnset, isMoreThanMatrix, isSeparate, Bool.and_eq_true, Bool.not_eq_true',
    Bool.or_eq_false_iff, Option.isSome_eq_false_iff, Option.isNone_iff_eq_none] at h
  obtain ⟨⟨⟨⟨⟨⟨⟨⟨rfl, rfl⟩, rfl⟩, rfl⟩, rfl⟩, rfl⟩, rfl⟩, rfl⟩, rfl⟩ := h
  rfl

/-! ## Properties at rest -/

omit [Scalar K] in
/-- Where none of some properties is driven, no animator drives any of them. -/
theorem Attachments.target_ne_of_animatesAny {a : Attachments K} {properties : List String}
    (h : a.animatesAny properties = false) (property : String) (hp : property ∈ properties) :
    ∀ animator ∈ a.animators, animator.target ≠ property := by
  intro animator hmem heq
  have hdrives : Animator.drives animator.target property = true := by simp [Animator.drives, heq]
  have hany : a.animatesAny properties = true :=
    List.any_eq_true.mpr ⟨animator, hmem, List.any_eq_true.mpr ⟨property, hp, hdrives⟩⟩
  rw [h] at hany
  nomatch hany

omit [Scalar K] in
/-- An object to which nothing is attached has no animators. -/
theorem Attachments.animators_of_isEmpty {a : Attachments K} (h : a.isEmpty = true) :
    a.animators = [] := by
  simp only [isEmpty, Bool.and_eq_true, List.isEmpty_iff] at h
  exact h.1.1

namespace Moment

variable (m : Moment K) (id : ObjectId) {o : Object K}

/-- A property that no animator drives has no animated value. -/
theorem animated_still {property : String}
    (h : ∀ a ∈ o.attached.animators, a.target ≠ property) :
    m.animated id o property = .ok none := by
  have hfind : (o.attached.animators.reverse.find? fun a => a.target = property) = none := by
    simpa using h
  simp [animated, hfind]

/-- A scalar that nothing drives is as it was set. -/
theorem scalar_still {property : String} (h : ∀ a ∈ o.attached.animators, a.target ≠ property)
    (own : Option K) : m.scalar id o property own = .ok own := by
  simp only [scalar, animated_still m id h]
  rfl

theorem vector2_still {property : String} (h : ∀ a ∈ o.attached.animators, a.target ≠ property)
    (own : Option (Vec2 K)) : m.vector2 id o property own = .ok own := by
  simp only [vector2, animated_still m id h]
  rfl

theorem vector3_still {property : String} (h : ∀ a ∈ o.attached.animators, a.target ≠ property)
    (own : Option (Vec3 K)) : m.vector3 id o property own = .ok own := by
  simp only [vector3, animated_still m id h]
  rfl

section

variable (h : o.attached.animatesAny transformProperties = false)

include h

/-- A rotation that nothing drives, in degrees or in radians, is as it was set. -/
theorem rotation_still (own : Option K) : m.rotation id o own = .ok own := by
  have hdegrees := o.attached.target_ne_of_animatesAny h "RotationAngleInDegrees" (by decide)
  have hradians := o.attached.target_ne_of_animatesAny h "RotationAngle" (by decide)
  simp only [rotation, scalar_still m id hdegrees, scalar_still m id hradians]
  cases own <;> rfl

/-- The place of a shape that nothing drives. -/
theorem shapeMatrix_still (t : ShapeTransform K) : m.shapeMatrix id o t = .ok t.toMatrix := by
  have hcenter := o.attached.target_ne_of_animatesAny h "CenterPoint" (by decide)
  have hoffset := o.attached.target_ne_of_animatesAny h "Offset" (by decide)
  have hscale := o.attached.target_ne_of_animatesAny h "Scale" (by decide)
  simp only [shapeMatrix, vector2_still m id hcenter, vector2_still m id hoffset,
    vector2_still m id hscale, rotation_still m id h]
  rfl

/-- The state of a visual whose transform nothing drives. -/
theorem visualState_still (v : Visual K) :
    m.visualState id o v =
      (m.scalar id o "Opacity" v.opacity >>= fun opacity =>
        m.animated id o "IsVisible" >>= fun visible =>
          pure (v.toMatrix.flatten, opacity.getD 1,
            match visible with
            | some (.boolean b) => b
            | _ => v.isVisible.getD true)) := by
  have hcenter := o.attached.target_ne_of_animatesAny h "CenterPoint" (by decide)
  have hoffset := o.attached.target_ne_of_animatesAny h "Offset" (by decide)
  have hscale := o.attached.target_ne_of_animatesAny h "Scale" (by decide)
  simp only [visualState, vector3_still m id hcenter, vector3_still m id hoffset,
    vector3_still m id hscale, rotation_still m id h]
  rfl

end

/-! ## Sampling without failure -/

end Moment

/-- A run that gives a result. -/
def Succeeds {ε α : Type} (x : Except ε α) : Prop := ∃ a, x = .ok a

/-- A run succeeds if its first step does, and if it can go on from every result. -/
theorem Succeeds.bind {ε α β : Type} {x : Except ε α} {f : α → Except ε β} (hx : Succeeds x)
    (hf : ∀ a, Succeeds (f a)) : Succeeds (x >>= f) := by
  obtain ⟨a, rfl⟩ := hx
  exact hf a

/-- A run over a list succeeds if it does at every entry. -/
theorem Succeeds.mapM {ε α β : Type} {f : α → Except ε β} {as : List α}
    (hf : ∀ a ∈ as, Succeeds (f a)) : Succeeds (as.mapM f) := by
  induction as with
  | nil => exact ⟨[], rfl⟩
  | cons a as ih =>
    rw [List.mapM_cons]
    refine (hf a List.mem_cons_self).bind fun b => ?_
    refine (ih fun c hc => hf c (List.mem_cons_of_mem _ hc)).bind fun bs => ?_
    exact ⟨b :: bs, rfl⟩

namespace Scene.Ranked

variable {A : ObjectId → Prop} {rank : ObjectId → Nat} {s : Scene K} (h : s.Ranked A rank)
  {id : ObjectId} {o : Object K} (hid : A id) (ho : s.get? id = some o) (time : Int64)

include h hid ho

omit [Scalar K] in
/-- What an object of the set refers to is an object. -/
theorem target_object {t : ObjectId} (ht : t ∈ o.targets) : A t ∧ ∃ x, s.get? t = some x :=
  have hA := h.closed hid (refers_of_get? ho ht)
  ⟨hA, h.object hA⟩

/-- The value of an animation is there if its easings are. -/
theorem valueOf_succeeds {a : KeyFrameAnimation K} (hc : o.content = .keyFrameAnimation a) :
    Succeeds (Moment.valueOf ⟨s, time⟩ id a) := by
  simp only [Moment.valueOf]
  split
  · rename_i here next _ hnext
    split
    · exact ⟨_, rfl⟩
    · split
      · exact ⟨_, rfl⟩
      · rename_i easing heasing
        have hmem := List.mem_of_getElem? hnext
        obtain ⟨-, e, he⟩ := h.target_object hid ho (o.frame_mem_targets hc hmem (.inr heasing))
        rw [resolve_bind he]
        exact ⟨_, rfl⟩
  · exact ⟨_, rfl⟩

/-- The animated value of a property is there if the animation is. -/
theorem animated_succeeds (property : String) :
    Succeeds (Moment.animated ⟨s, time⟩ id o property) := by
  simp only [Moment.animated]
  split
  · exact ⟨none, rfl⟩
  · rename_i animator hfind
    have hmem : animator ∈ o.attached.animators := by simpa using List.mem_of_find?_eq_some hfind
    obtain ⟨hA, x, hx⟩ := h.target_object hid ho (o.animation_mem_targets hmem)
    rw [resolve_bind hx]
    split
    · rename_i a hc
      exact h.valueOf_succeeds hA hx time hc
    · exact ⟨none, rfl⟩

omit [Scalar K] in
/-- The expressions of an object are there if its animations are. -/
theorem expressionsOf_succeeds : Succeeds (Moment.expressionsOf ⟨s, time⟩ id o) := by
  refine Succeeds.bind (Succeeds.mapM fun a ha => ?_) fun found => ⟨_, rfl⟩
  obtain ⟨-, x, hx⟩ := h.target_object hid ho (o.animation_mem_targets ha)
  rw [resolve_bind hx]
  split <;> exact ⟨_, rfl⟩

/-- The matrix of a shape is there, whether its settings are driven or not. -/
theorem shapeMatrix_succeeds (t : ShapeTransform K) :
    Succeeds (Moment.shapeMatrix ⟨s, time⟩ id o t) := by
  have hanimated := h.animated_succeeds hid ho time
  have hscalar : ∀ property own, Succeeds (Moment.scalar ⟨s, time⟩ id o property own) :=
    fun property own => (hanimated property).bind fun v => by split <;> exact ⟨_, rfl⟩
  have hvector : ∀ property own, Succeeds (Moment.vector2 ⟨s, time⟩ id o property own) :=
    fun property own => (hanimated property).bind fun v => by split <;> exact ⟨_, rfl⟩
  refine (hvector _ _).bind fun _ => (hvector _ _).bind fun _ => (hvector _ _).bind fun _ => ?_
  refine ((hscalar _ _).bind fun _ => (hscalar _ _).bind fun _ => ⟨_, rfl⟩).bind fun _ => ⟨_, rfl⟩

/-! ## Dissolving -/

/-- **A container without shapes draws nothing**, whatever drives it. -/
theorem dissolves_empty {t : ShapeTransform K} (hc : o.content = .containerShape t [])
    (matrix : Matrix3x2 K) : Moment.Dissolves ⟨s, time⟩ id matrix [] := by
  intro depth holder around
  obtain ⟨es, hes⟩ := h.expressionsOf_succeeds hid ho time
  obtain ⟨placed, hplaced⟩ := h.shapeMatrix_succeeds hid ho time t
  rw [Moment.visit_containerShape ho hc, hes, hplaced]
  rfl

end Scene.Ranked

namespace Moment

variable {m : Moment K} {id : ObjectId} {o : Object K}

omit [Scalar K] in
/-- An object that nothing drives adds no expressions. -/
theorem expressionsOf_nil (h : o.attached.animators = []) : m.expressionsOf id o = .ok [] := by
  simp only [expressionsOf, h]
  rfl

/-- A container that carries nothing leaves its matrix to its shapes. -/
theorem dissolves_containerShape (ho : m.scene.get? id = some o) (hbare : o.attached.isEmpty = true)
    {t : ShapeTransform K} {cs : List ObjectId} (hc : o.content = .containerShape t cs) :
    m.Dissolves id t.toMatrix cs := by
  intro depth holder around
  have hnone := o.attached.animators_of_isEmpty hbare
  have hstill : o.attached.animatesAny transformProperties = false := by
    simp [Attachments.animatesAny, hnone]
  rw [visit_containerShape ho hc, expressionsOf_nil hnone, shapeMatrix_still m id hstill]
  show m.gather depth id cs _ = _
  rw [List.append_nil]

/-- A visual that carries and sets nothing leaves its place to what it holds. -/
theorem dissolves_visual (hone : ∀ x : K, x * 1 = x) (ho : m.scene.get? id = some o)
    (hbare : o.attached.isEmpty = true) {cs : List ObjectId}
    (hc : o.content = .containerVisual {} cs) : m.Dissolves id (Visual.toMatrix {}).flatten cs := by
  intro depth holder around
  have hnone := o.attached.animators_of_isEmpty hbare
  have hstill : o.attached.animatesAny transformProperties = false := by
    simp [Attachments.animatesAny, hnone]
  have hrest : ∀ property, ∀ a ∈ o.attached.animators, a.target ≠ property := by simp [hnone]
  rw [visit_visual ho (.inl hc), expressionsOf_nil hnone, visualState_still m id hstill,
    scalar_still m id (hrest _), animated_still m id (hrest _)]
  show m.gather depth id cs ⟨_, around.opacity * 1, around.expressions ++ []⟩ = _
  rw [hone, List.append_nil]

end Moment
end Diorama
