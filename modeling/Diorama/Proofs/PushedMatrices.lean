/-
  Pushing a matrix down cannot be seen.

  A push edits a container and all its shapes.  The world around the shapes is not the same before
  and after: before, it has the matrix of the container, and after, it does not (`Carried`).  That
  this ends well needs two things.

    * Nobody but the container sees the shapes.  One slot refers to each of them, counted when the
      pass began.  The pass changes no reference, so the count still holds at every push
      (`Pushing`), also where a shape that took a matrix over pushes it on.
    * Each shape makes up for the difference with its own new matrix, which is a law of places
      (`Placing.push`).

  So the worlds are related in one way around the shapes and in the usual way everywhere else.
-/
import Diorama.Proofs.Indexability
import Diorama.Proofs.ReductionSteps

namespace Diorama.Reduction

variable {K : Type} [Scalar K] {R : Matrix3x2 K → Matrix3x2 K → Prop} {A : ObjectId → Prop}
  {rank : ObjectId → Nat} {s₀ s₁ s s' : Scene K} {x : ObjectId} {o : Object K} {done : Reduction}
  {single : ObjectId → Bool} {m : Matrix3x2 K} {shapes : List ObjectId}

/-! ## What a push does -/

omit [Scalar K] in
/-- A container with nothing but a matrix and shapes. -/
theorem matrixContainer?_eq_some (h : matrixContainer? o = some (m, shapes)) :
    o.attached.isEmpty = true ∧ o.content = .containerShape { matrix := some m } shapes := by
  unfold matrixContainer? at h
  split at h
  · rename_i t cs hc
    split at h
    · rename_i hplain
      obtain ⟨hempty, hseparate⟩ := Bool.and_eq_true_iff.mp hplain
      obtain ⟨own, hown, hpair⟩ := Option.map_eq_some_iff.mp h
      obtain ⟨rfl, rfl⟩ := Prod.mk.inj hpair
      have ht : t = { matrix := t.matrix } :=
        ShapeTransform.eq_matrix_of_not_isSeparate (by simpa using hseparate)
      rw [hown] at ht
      exact ⟨hempty, by rw [hc, ht]⟩
    · nomatch h
  · nomatch h

/-- What a push can do: the shapes take the matrix over one by one, and the container drops it. -/
theorem pushObject_cases (h : pushObject single x s = .ok done s') :
    s' = s ∨ ∃ o m shapes t, s.get? x = some o ∧ o.attached.isEmpty = true ∧
      o.content = .containerShape { matrix := some m } shapes ∧
      (∀ c ∈ shapes, single c = true ∧ ∃ p, s.get? c = some p ∧ accepts p = true) ∧
      shapes.forM
        (fun c => Editing.change c fun p => { p with content := takeOver m p.content }) s =
        .ok () t ∧
      Editing.change x (fun p => { p with content := dropMatrix p.content }) t = .ok () s' := by
  rcases pushObject_spec single x s with ⟨hidle, -⟩ | ⟨o, m, shapes, -, -, ho, hmatrix, hall, hrun⟩
  · rw [hidle] at h
    cases h
    exact .inl rfl
  · rw [hrun] at h
    obtain ⟨⟨⟩, t, hshapes, hrest⟩ := Editing.exists_of_bind h
    obtain ⟨⟨⟩, u, hdrop, hdone⟩ := Editing.exists_of_bind hrest
    obtain rfl := Editing.eq_of_pure hdone
    obtain ⟨hempty, hc⟩ := matrixContainer?_eq_some hmatrix
    exact .inr ⟨o, m, shapes, t, ho, hempty, hc, hall, hshapes, hdrop⟩

/-- What becomes of each object when `x` leaves a matrix to its shapes. -/
def pushed (x : ObjectId) (m : Matrix3x2 K) (shapes : List ObjectId) (y : ObjectId) (p : Object K) :
    Object K :=
  if y ∈ shapes then { p with content := takeOver m p.content }
  else if y = x then { p with content := dropMatrix p.content }
  else p

/-- Pushing leaves attachments alone. -/
theorem pushed_attached (y : ObjectId) (p : Object K) :
    (pushed x m shapes y p).attached = p.attached := by
  unfold pushed
  split
  · rfl
  · split <;> rfl

/-- A shape that takes a matrix over is of its kind and refers to what it referred to. -/
theorem takeOver_content (m : Matrix3x2 K) (c : Content K) :
    (takeOver m c).references = c.references ∧ c.Counterpart Eq id (takeOver m c) := by
  cases c with
  | containerShape t cs => exact ⟨rfl, .containerShape _ _ _ _⟩
  | spriteShape a => exact ⟨rfl, .spriteShape _ _⟩
  | _ => exact ⟨rfl, .refl _⟩

/-- Pushing keeps references, and contents are counterparts. -/
theorem pushed_content (y : ObjectId) (p : Object K) :
    (pushed x m shapes y p).content.references = p.content.references ∧
      p.content.Counterpart Eq id (pushed x m shapes y p).content := by
  unfold pushed
  split
  · exact takeOver_content m p.content
  · split
    · show (dropMatrix p.content).references = _ ∧ _
      cases p.content with
      | containerShape t cs => exact ⟨rfl, .containerShape _ _ _ _⟩
      | _ => exact ⟨rfl, .refl _⟩
    · exact ⟨rfl, .refl _⟩

/-- Pushing keeps what an object refers to. -/
theorem pushed_targets (y : ObjectId) (p : Object K) :
    (pushed x m shapes y p).targets = p.targets := by
  simp only [Object.targets, Object.references, Object.animatorReferences, pushed_attached,
    (pushed_content y p).1]

/-- Objects are counterparts of what they were. -/
theorem pushed_counterpart (y : ObjectId) (p : Object K) :
    p.Counterpart Eq id (pushed x m shapes y p) := by
  refine ⟨?_, (pushed_content y p).2⟩
  rw [pushed_attached]
  exact (Object.Counterpart.refl p).animators

omit [Scalar K] in
/-- What a shape is like that takes a matrix over: nothing drives it and it sets nothing but a
matrix. -/
theorem exists_of_accepts (h : accepts o = true) :
    o.attached.animatesAny transformProperties = false ∧
      ((∃ own cs, o.content = .containerShape { matrix := own } cs) ∨
        ∃ a, o.content = .spriteShape a ∧ a.transform = { matrix := a.transform.matrix }) := by
  unfold accepts at h
  split at h
  · rename_i t cs hc
    rw [Bool.and_eq_true, Bool.not_eq_true', Bool.not_eq_true'] at h
    refine ⟨h.1, .inl ⟨t.matrix, cs, ?_⟩⟩
    rw [hc, ← ShapeTransform.eq_matrix_of_not_isSeparate h.2]
  · rename_i a hc
    rw [Bool.and_eq_true, Bool.not_eq_true', Bool.not_eq_true'] at h
    exact ⟨h.1, .inr ⟨a, hc, ShapeTransform.eq_matrix_of_not_isSeparate h.2⟩⟩
  · nomatch h

/-- A shape that takes a matrix over, in worlds that its own matrix makes up for. -/
theorem likewise_takeOver {y : ObjectId} {p : Object K} (haccepts : accepts p = true) {time : Int64}
    {W : ObjectId → Matrix3x2 K → Matrix3x2 K → Prop} {V : Matrix3x2 K → Matrix3x2 K → Prop}
    (hV : ∀ own w w', W y w w' → V ((ShapeTransform.toMatrix { matrix := own }).andThen w)
      ((followedBy m { matrix := own }).toMatrix.andThen w'))
    (hinside : Inside s time id W V p.content.children p.content.children) :
    Likewise Eq id s s' time W V y p { p with content := takeOver m p.content } := by
  obtain ⟨hstill, hshape⟩ := exists_of_accepts haccepts
  have hmatrix : ∀ own : Option (Matrix3x2 K),
      Agree (fun a b => ∀ w w', W y w w' → V (a.andThen w) (b.andThen w'))
        (Moment.shapeMatrix ⟨s, time⟩ y p { matrix := own })
        (Moment.shapeMatrix ⟨s', time⟩ y { p with content := takeOver m p.content }
          (followedBy m { matrix := own })) :=
    fun own => shapeMatrix_still_agree rfl hstill time (hV own)
  rcases hshape with ⟨own, cs, hc⟩ | ⟨a, hc, ha⟩
  · rw [hc] at hinside
    exact .containerShape V hc (congrArg (takeOver m) hc) (hmatrix own) hinside
  · have hparts := Sprite.Counterpart.refl a
    refine .sprite hc (congrArg (takeOver m) hc)
      ⟨hparts.geometry, hparts.fillBrush, hparts.strokeBrush, hparts.thickness⟩ ?_
    have hown := hmatrix a.transform.matrix
    rw [← ha] at hown
    exact hown

/-! ## The pass -/

/-- What holds in the course of a pass that began with `s₁`: no reference has changed. -/
structure Pushing (R : Matrix3x2 K → Matrix3x2 K → Prop) (A : ObjectId → Prop)
    (rank : ObjectId → Nat) (s₀ s₁ s : Scene K) : Prop where
  reduced : Reduced R A rank s₀ s
  root : s.root = s₁.root
  targets (y : ObjectId) : s.targetsOf y = s₁.targetsOf y

/-- During the pass, objects refer to what they referred to at its beginning. -/
theorem Pushing.refers_iff (h : Pushing R A rank s₀ s₁ s) {a b : ObjectId} :
    s.Refers a b ↔ s₁.Refers a b := by
  rw [Scene.Refers, Scene.Refers, h.targets]

/-- What is reachable at the beginning of the pass is ranked below the root. -/
theorem mem_of_mem_reachable (h₁ : Reduced R A rank s₀ s₁) {y : ObjectId}
    (hy : y ∈ s₁.reachable) : A y ∧ rank y ≤ rank s₁.root :=
  h₁.ranked.reaches_lower h₁.root (Scene.reaches_of_mem_reachable hy)

/-- In the course of a pass the objects that were reachable at its beginning are ranked. -/
theorem Pushing.ranked (h₁ : Reduced R A rank s₀ s₁) (h : Pushing R A rank s₀ s₁ s) :
    s.Ranked (· ∈ s₁.reachable) rank := by
  refine ⟨fun hy => h.reduced.ranked.object (mem_of_mem_reachable h₁ hy).1, fun ha hab => ?_,
    fun ha hab => h.reduced.ranked.descends (mem_of_mem_reachable h₁ ha).1 hab,
    fun hy => h.reduced.ranked.bounded (mem_of_mem_reachable h₁ hy).1⟩
  -- the reference was there when the pass began, and it led to an object
  have hab₁ := h.refers_iff.mp hab
  obtain ⟨p, hp⟩ := h₁.ranked.object (h₁.ranked.closed (mem_of_mem_reachable h₁ ha).1 hab₁)
  exact Scene.mem_reachable_of_refers ha hab₁ hp

/-- The object `x` can leave its matrix to its shapes, in a pass that began with `s₁`. -/
structure Pushable (s₁ s : Scene K) (x : ObjectId) (o : Object K) (m : Matrix3x2 K)
    (shapes : List ObjectId) : Prop where
  reachable : x ∈ s₁.reachable
  object : s.get? x = some o
  bare : o.attached.isEmpty = true
  content : o.content = .containerShape { matrix := some m } shapes
  single {c : ObjectId} : c ∈ shapes → s₁.slotTargets.count c = 1
  accepted {c : ObjectId} : c ∈ shapes → ∃ p, s.get? c = some p ∧ accepts p = true

namespace Pushable

variable (h₁ : Reduced R A rank s₀ s₁) (h : Pushing R A rank s₀ s₁ s)
  (hpush : Pushable s₁ s x o m shapes)

include h hpush

omit [Scalar K] h in
theorem refers {c : ObjectId} (hc : c ∈ shapes) : s.Refers x c := by
  refine Scene.refers_of_get? hpush.object (Object.mem_targets_of_mem_children ?_)
  rw [hpush.content]
  exact hc

/-- Nobody else holds the shapes. -/
theorem holder {y c : ObjectId} (hy : y ∈ s₁.reachable) (hc : c ∈ shapes) (hyc : s.Refers y c) :
    y = x :=
  Scene.holder_unique (hpush.single hc) hy hpush.reachable (h.refers_iff.mp hyc)
    (h.refers_iff.mp (hpush.refers hc))

/-- No shape is listed twice, as each is referred to once. -/
theorem nodup : shapes.Nodup := by
  rw [List.nodup_iff_count_le_one]
  intro c
  by_cases hc : c ∈ shapes
  · have hslots := Scene.count_targetsOf_le (s := s₁) (c := c) hpush.reachable
    rw [hpush.single hc, ← h.targets, Scene.targetsOf_of_get? hpush.object] at hslots
    have htargets : o.targets = shapes ++ o.animatorReferences.map (·.target) := by
      rw [Object.targets, Object.references, hpush.content, List.map_append]
      exact congrArg (· ++ _) (Reference.map_target_many .child shapes)
    rw [htargets, List.count_append] at hslots
    omega
  · rw [List.count_eq_zero_of_not_mem hc]
    exact Nat.zero_le 1

include h₁

/-- The shapes are lower than the container, and so than the root. -/
theorem lower {c : ObjectId} (hc : c ∈ shapes) : rank c < rank x ∧ rank c < rank s₁.root := by
  obtain ⟨hA, hle⟩ := mem_of_mem_reachable h₁ hpush.reachable
  have hdrop := h.reduced.ranked.descends hA (hpush.refers hc)
  exact ⟨hdrop, by omega⟩

/-- A container is none of its own shapes. -/
theorem not_mem : x ∉ shapes := by
  intro hx
  have := (hpush.lower h₁ h hx).1
  omega

/-- All changes of a push together. -/
theorem edited {t : Scene K}
    (hshapes : shapes.forM (fun c => Editing.change c fun p =>
      { p with content := takeOver m p.content }) s = .ok () t)
    (hdrop : Editing.change x (fun p => { p with content := dropMatrix p.content }) t = .ok () s') :
    s.Edited (pushed x m shapes) s' := by
  have hx := hpush.not_mem h₁ h
  have hfirst := Editing.edited_of_forM (hpush.nodup h) hshapes
  refine (hfirst.trans (Editing.edited_of_change hdrop)).congr fun y p _ => ?_
  by_cases hy : y ∈ shapes
  · have hyx : y ∉ [x] := by
      rintro hmem
      obtain rfl := List.mem_singleton.mp hmem
      exact hx hy
    rw [editOf_of_not_mem hyx, editOf_of_mem hy, pushed, if_pos hy]
  · rw [editOf_of_not_mem hy, pushed, if_neg hy, editOf]
    simp only [List.mem_singleton]

end Pushable

/-! ## The worlds of a push -/

/-- The worlds inside a container that drops its matrix. -/
def Carried (R : Matrix3x2 K → Matrix3x2 K → Prop) (m w w' : Matrix3x2 K) : Prop :=
  ∃ u u', R u u' ∧ w = (ShapeTransform.toMatrix { matrix := some m }).andThen u ∧
    w' = (ShapeTransform.toMatrix {}).andThen u'

/-- The worlds around each object before and after a push. -/
def pushWorlds (R : Matrix3x2 K → Matrix3x2 K → Prop) (m : Matrix3x2 K) (shapes : List ObjectId)
    (y : ObjectId) : Matrix3x2 K → Matrix3x2 K → Prop :=
  if y ∈ shapes then Carried R m else R

/-- A shape takes the matrix into its surroundings. -/
theorem pushWorlds_of_mem {y : ObjectId} (hy : y ∈ shapes) :
    pushWorlds R m shapes y = Carried R m := if_pos hy

/-- All other objects keep their surroundings. -/
theorem pushWorlds_of_not_mem {y : ObjectId} (hy : y ∉ shapes) : pushWorlds R m shapes y = R :=
  if_neg hy

namespace Pushable

variable (hR : Placing R) (h₁ : Reduced R A rank s₀ s₁) (h : Pushing R A rank s₀ s₁ s)
  (hpush : Pushable s₁ s x o m shapes) {y : ObjectId} {p p' : Object K}
  (hf : Facing Eq id (· ∈ s₁.reachable) s s' y p p') (time : Int64)

include h hpush hf

/-- What other objects hold is in the usual worlds. -/
theorem inside_other (hyx : y ≠ x) :
    Inside s time id (pushWorlds R m shapes) R p.content.children p.content.children := by
  refine .same fun c hc w w' hw => ?_
  have hother : c ∉ shapes := fun hmem => hyx (hpush.holder h hf.mem hmem
    (Scene.refers_of_get? hf.left (Object.mem_targets_of_mem_children hc)))
  rw [pushWorlds_of_not_mem hother]
  exact hw

include hR h₁

/-- A shape that takes the matrix over makes up for its missing above. -/
theorem likewise_shape (hy : y ∈ shapes)
    (hp' : p' = { p with content := takeOver m p.content }) :
    Likewise Eq id s s' time (pushWorlds R m shapes) R y p p' := by
  subst hp'
  have hyx : y ≠ x := by
    rintro rfl
    exact hpush.not_mem h₁ h hy
  obtain ⟨q, hq, haccepts⟩ := hpush.accepted hy
  obtain rfl := Option.some.inj (hf.left.symm.trans hq)
  -- below the shape the worlds are the usual ones again
  refine likewise_takeOver haccepts (fun own w w' hw => ?_) (hpush.inside_other h hf time hyx)
  rw [pushWorlds_of_mem hy] at hw
  obtain ⟨u, u', hu, rfl, rfl⟩ := hw
  exact hR.push m own hu

omit hR in
/-- The container passes on a world without its matrix. -/
theorem likewise_container (hy : y = x)
    (hp' : p' = { p with content := dropMatrix p.content }) :
    Likewise Eq id s s' time (pushWorlds R m shapes) R y p p' := by
  subst hy hp'
  obtain rfl := Option.some.inj (hf.left.symm.trans hpush.object)
  have hstill : p.attached.animatesAny transformProperties = false := by
    simp [Attachments.animatesAny, p.attached.animators_of_isEmpty hpush.bare]
  refine .containerShape (Carried R m) hpush.content (congrArg dropMatrix hpush.content)
    (shapeMatrix_still_agree rfl hstill time fun w w' hw => ?_) (.same fun c hc w w' hw => ?_)
  · rw [pushWorlds_of_not_mem (hpush.not_mem h₁ h)] at hw
    exact ⟨w, w', hw, rfl, rfl⟩
  · rw [pushWorlds_of_mem hc]
    exact hw

/-- **Everything is drawn likewise before and after a push.** -/
theorem likewise (he : s.Edited (pushed x m shapes) s')
    (hmirrors : s.Mirrors Eq id (· ∈ s₁.reachable) rank s') (hdrawn : p.content.isDrawn = true) :
    Likewise Eq id s s' time (pushWorlds R m shapes) R y p p' := by
  have hp' : p' = pushed x m shapes y p := hf.eq_of_edited he
  by_cases hy : y ∈ shapes
  · exact hpush.likewise_shape hR h₁ h hf time hy (hp'.trans (if_pos hy))
  · by_cases hyx : y = x
    · exact hpush.likewise_container h₁ h hf time hyx
        (hp'.trans ((if_neg hy).trans (if_pos hyx)))
    · have hsame : p' = p := hp'.trans ((if_neg hy).trans (if_neg hyx))
      refine .of_withChildren hR hmirrors hf hdrawn
        (hsame ▸ p.content.withChildren_children.symm) (fun w w' hw => ?_)
        (hpush.inside_other h hf time hyx)
      rwa [pushWorlds_of_not_mem hy] at hw

end Pushable

/-- **Pushing down keeps the picture**, and no reference changes. -/
theorem pushObject_preserves (hR : Placing R) (h₁ : Reduced R A rank s₀ s₁)
    (hsingle : ∀ c, single c = true → s₁.slotTargets.count c = 1) (hx : x ∈ s₁.reachable) :
    Editing.Preserves (Pushing R A rank s₀ s₁) (pushObject single x) := by
  intro s s' done h hstep
  rcases pushObject_cases hstep with rfl | ⟨o, m, shapes, t, ho, hbare, hc, hall, hshapes, hdrop⟩
  · exact h
  · have hpush : Pushable s₁ s x o m shapes :=
      ⟨hx, ho, hbare, hc, fun hmem => hsingle _ (hall _ hmem).1, fun hmem => (hall _ hmem).2⟩
    have he := hpush.edited h₁ h hshapes hdrop
    have hmirrors : s.Mirrors Eq id (· ∈ s₁.reachable) rank s' :=
      (h.ranked h₁).mirrors he fun y p _ _ => pushed_counterpart y p
    -- the root is above all shapes, so around it the worlds are the usual ones
    have hroot : s.root ∉ shapes := by
      intro hmem
      have := (hpush.lower h₁ h hmem).2
      rw [h.root] at this
      omega
    refine ⟨h.reduced.next hR ?_ he.root fun time => ?_, he.root.trans h.root, fun y => ?_⟩
    · -- references stay, so they lead to lower objects as before
      refine h.reduced.ranked.edited he fun y p hy hp c hmem => ?_
      rw [pushed_targets] at hmem
      have hyc := Scene.refers_of_get? hp hmem
      exact ⟨h.reduced.ranked.closed hy hyc, h.reduced.ranked.descends hy hyc⟩
    · obtain ⟨r, hr⟩ := h₁.ranked.object h₁.root
      refine sampleAt_agree hmirrors
        (fun y p p' hf hdrawn => hpush.likewise hR h₁ h hf time he hmirrors hdrawn) ?_
        he.root.symm ?_
      · rw [h.root]
        exact Scene.root_mem_reachable hr
      · rw [pushWorlds_of_not_mem hroot]
        exact hR.refl _
    · rw [← h.targets, Scene.targetsOf, Scene.targetsOf, he.object]
      cases s.get? y with
      | none => rfl
      | some p => exact pushed_targets y p

end Diorama.Reduction
