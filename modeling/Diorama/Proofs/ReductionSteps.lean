/-
  What an edit of the reduction does to the picture.

  Dead containers are dropped, transforms are folded into one matrix, containers are spliced, and
  matrices are pushed down.  None of these edits loses a sprite or moves it elsewhere in the list,
  and of each sprite nothing but the place is computed in another way.  Here are the edits of a
  single object; pushing down, which edits several at once, has a module of its own.

  How far places agree depends on the arithmetic.  `Placing R` lists what the edits ask of a
  relation `R` between places, and everything is proved for such a relation.  There are two: in
  exact arithmetic the places are equal, and without any law at all nothing is said about them.

  `Reduced` is what holds at every point of a reduction, and each kind of edit has a lemma that the
  step keeps it (`…_preserves`).
-/
import Diorama.Proofs.StepOutcomes

namespace Diorama

variable {K : Type} [Scalar K]

/-! ## Places -/

/-- What the edits of a reduction ask of a relation between places. -/
structure Placing (R : Matrix3x2 K → Matrix3x2 K → Prop) : Prop where
  refl (m : Matrix3x2 K) : R m m
  trans {l m n : Matrix3x2 K} : R l m → R m n → R l n
  follow (m : Matrix3x2 K) {w w' : Matrix3x2 K} : R w w' → R (m.andThen w) (m.andThen w')
  fold (t : ShapeTransform K) {w w' : Matrix3x2 K} : R w w' →
    R (t.toMatrix.andThen w) (t.fold.toMatrix.andThen w')
  foldVisual (v : Visual K) {w w' : Matrix3x2 K} : R w w' →
    R (v.toMatrix.flatten.andThen w) (v.fold.toMatrix.flatten.andThen w')
  push (m : Matrix3x2 K) (own : Option (Matrix3x2 K)) {w w' : Matrix3x2 K} : R w w' →
    R ((ShapeTransform.toMatrix { matrix := own }).andThen
        ((ShapeTransform.toMatrix { matrix := some m }).andThen w))
      ((Reduction.followedBy m { matrix := own }).toMatrix.andThen
        ((ShapeTransform.toMatrix {}).andThen w'))
  unset {w w' : Matrix3x2 K} : R w w' → R ((ShapeTransform.toMatrix {}).andThen w) w'
  unsetVisual {w w' : Matrix3x2 K} : R w w' → R ((Visual.toMatrix {}).flatten.andThen w) w'

/-- Nothing at all is asked of places. -/
theorem Placing.anywhere : Placing fun _ _ : Matrix3x2 K => True where
  refl _ := trivial
  trans _ _ := trivial
  follow _ _ _ _ := trivial
  fold _ _ _ _ := trivial
  foldVisual _ _ _ _ := trivial
  push _ _ _ _ _ := trivial
  unset _ := trivial
  unsetVisual _ := trivial

/-- The same sample at a related place. -/
structure Sample.Moved (R : Matrix3x2 K → Matrix3x2 K → Prop) (a b : Sample K) : Prop where
  place : R a.transform b.transform
  rest : b = { a with transform := b.transform }

omit [Scalar K] in
theorem Sample.Like.moved {R : Matrix3x2 K → Matrix3x2 K → Prop} {a b : Sample K}
    (h : a.Like R Eq b) : a.Moved R b := by
  refine ⟨h.transform, ?_⟩
  obtain ⟨transform, opacity, geometry, trim, fill, stroke, strokeThickness, expressions⟩ := b
  have hopacity : a.opacity = opacity := h.opacity
  have hgeometry : a.geometry = geometry := h.geometry.eq
  have htrim : a.trim = trim := h.trim.eq
  have hfill : a.fill = fill := h.fill
  have hstroke : a.stroke = stroke := h.stroke
  have hthickness : a.strokeThickness = strokeThickness := h.strokeThickness
  have hexpressions : a.expressions = expressions := h.expressions
  rw [hopacity, hgeometry, htrim, hfill, hstroke, hthickness, hexpressions]

/-- Samples that were moved twice were moved. -/
theorem Sample.Moved.trans {R : Matrix3x2 K → Matrix3x2 K → Prop} (hR : Placing R)
    {a b c : Sample K} (h : a.Moved R b) (h' : b.Moved R c) : a.Moved R c := by
  refine ⟨hR.trans h.place h'.place, ?_⟩
  rw [h'.rest, h.rest]

/-- What holds in the course of a reduction of `s₀`: the objects are ranked and the picture is the
same. -/
structure Reduced (R : Matrix3x2 K → Matrix3x2 K → Prop) (A : ObjectId → Prop)
    (rank : ObjectId → Nat) (s₀ s : Scene K) : Prop where
  ranked : s.Ranked A rank
  root : A s.root
  picture (time : Int64) :
    Agree (List.Forall₂ (Sample.Moved R)) (s₀.sampleAt time) (s.sampleAt time)

variable {R : Matrix3x2 K → Matrix3x2 K → Prop} {A : ObjectId → Prop} {rank : ObjectId → Nat}
  {s₀ s s' : Scene K} {x : ObjectId} {o o' : Object K}

/-- A scene is reduced from itself. -/
theorem Reduced.start (hR : Placing R) (h : s.Ranked A rank) (hroot : A s.root) :
    Reduced R A rank s s :=
  ⟨h, hroot, fun _ => .refl (fun _ => List.forall₂_same.mpr fun _ _ => ⟨hR.refl _, rfl⟩) _⟩

/-- A reduced scene that keeps its picture once more is reduced from the first one. -/
theorem Reduced.next (hR : Placing R) (h : Reduced R A rank s₀ s) (hranked : s'.Ranked A rank)
    (hroot : s'.root = s.root)
    (hpicture : ∀ time, Agree (List.Forall₂ (Sample.Like R Eq)) (s.sampleAt time)
      (s'.sampleAt time)) : Reduced R A rank s₀ s' := by
  refine ⟨hranked, hroot ▸ h.root, fun time => ?_⟩
  refine (h.picture time).trans (hpicture time) fun before now after hbefore hafter => ?_
  exact forall₂_through hbefore hafter fun a b c hab hbc => hab.trans hR hbc.moved

/-! ## Edited lists -/

theorem Sprite.Counterpart.refl (a : Sprite K) : a.Counterpart Eq id a :=
  ⟨by simp, by simp, by simp, rfl⟩

omit [Scalar K] in
theorem Content.withChildren_children (c : Content K) : c.withChildren c.children = c := by
  cases c <;> rfl

omit [Scalar K] in
/-- Children can be replaced where there are any. -/
theorem Content.children_withChildren {c : Content K} {cs : List ObjectId} (h : c.children ≠ []) :
    (c.withChildren cs).children = cs := by
  cases c with
  | containerVisual => rfl
  | shapeVisual => rfl
  | containerShape => rfl
  | _ => exact absurd rfl h

omit [Scalar K] in
/-- Replacing children adds no references except to them. -/
theorem Object.mem_targets_withChildren {cs : List ObjectId} {t : ObjectId}
    (h : t ∈ Object.targets { o with content := o.content.withChildren cs }) :
    t ∈ cs ∨ t ∈ o.targets := by
  have hmany : ∀ ref ∈ Reference.many .child cs, ref.target ∈ cs := by
    intro ref href
    have hmem := List.mem_map_of_mem (f := (·.target)) href
    rwa [Reference.map_target_many] at hmem
  obtain ⟨ref, href, rfl⟩ := List.mem_map.mp h
  rcases List.mem_append.mp href with href | href
  · have hold : ref ∈ Reference.many .child cs ∨ ref ∈ o.content.references := by
      cases hc : o.content with
      | containerVisual v ds =>
        rw [hc] at href
        rcases List.mem_append.mp href with hclip | hchild
        · exact .inr (List.mem_append_left _ hclip)
        · exact .inl hchild
      | shapeVisual v ds =>
        rw [hc] at href
        rcases List.mem_append.mp href with hclip | hchild
        · exact .inr (List.mem_append_left _ hclip)
        · exact .inl hchild
      | containerShape u ds =>
        rw [hc] at href
        exact .inl href
      | _ =>
        rw [hc] at href
        exact .inr href
    exact hold.imp (hmany ref) o.mem_targets_of_mem_references
  · exact .inr (List.mem_map_of_mem (List.mem_append_right _ href))

omit [Scalar K] in
/-- What an object refers to stands in its list, or it refers to that with any other list. -/
theorem Object.mem_children_or_targets (cs : List ObjectId) {t : ObjectId} (h : t ∈ o.targets) :
    t ∈ o.content.children ∨
      t ∈ Object.targets { o with content := o.content.withChildren cs } := by
  have hback : (o.content.withChildren cs).withChildren o.content.children = o.content := by
    cases o.content <;> rfl
  refine Object.mem_targets_withChildren (o := { o with content := o.content.withChildren cs }) ?_
  simp only [hback]
  exact h

/-- What stands in an edited list stood there before, or an object that stood there refers to it. -/
theorem Inside.mem_or_refers {time : Int64} {W : ObjectId → Matrix3x2 K → Matrix3x2 K → Prop}
    {V : Matrix3x2 K → Matrix3x2 K → Prop} {cs cs' : List ObjectId}
    (h : Inside s time id W V cs cs') : ∀ t ∈ cs', t ∈ cs ∨ ∃ c ∈ cs, s.Refers c t := by
  induction h with
  | nil => simp
  | keep _ _ ih => grind
  | dissolve _ hrefers _ _ ih => grind

/-- A list that is not edited. -/
theorem Inside.same {time : Int64} {W : ObjectId → Matrix3x2 K → Matrix3x2 K → Prop}
    {V : Matrix3x2 K → Matrix3x2 K → Prop} {cs : List ObjectId}
    (h : ∀ c ∈ cs, ∀ w w', V w w' → W c w w') : Inside s time id W V cs cs := by
  have hinside : Inside s time id W V cs (cs.map id) := .of_map h
  rwa [List.map_id] at hinside

/-- A list in which some entries dissolve without a trace in `R`. -/
theorem Inside.of_flatMap {time : Int64} {expand : ObjectId → List ObjectId} {cs : List ObjectId}
    (h : ∀ c ∈ cs, expand c = [c] ∨ ∃ matrix, Moment.Dissolves ⟨s, time⟩ c matrix (expand c) ∧
      ∀ g ∈ expand c, s.Refers c g ∧ ∀ w w', R w w' → R (matrix.andThen w) w') :
    Inside s time id (fun _ => R) R cs (cs.flatMap expand) := by
  induction cs with
  | nil => exact .nil
  | cons c cs ih =>
    have hrest := ih fun d hd => h d (List.mem_cons_of_mem _ hd)
    rw [List.flatMap_cons]
    rcases h c List.mem_cons_self with hkept | ⟨matrix, hdissolves, hheld⟩
    · rw [hkept]
      exact .keep (fun _ _ hw => hw) hrest
    · have hinside := Inside.dissolve (f := id) (W := fun _ => R) (V := R) hdissolves
        (fun g hg => (hheld g hg).1) (fun g hg => (hheld g hg).2) hrest
      rwa [List.map_id] at hinside

/-- An object of which at most the list is edited moves what it holds by the same matrix. -/
theorem Likewise.of_list (h : s.Mirrors Eq id A rank s') (hf : Facing Eq id A s s' x o o')
    (hdrawn : o.content.isDrawn = true) {time : Int64}
    {W : ObjectId → Matrix3x2 K → Matrix3x2 K → Prop} {V : Matrix3x2 K → Matrix3x2 K → Prop}
    {cs : List ObjectId} (hc : o'.content = o.content.withChildren cs)
    (hV : ∀ m w w' : Matrix3x2 K, W x w w' → V (m.andThen w) (m.andThen w'))
    (inside : Inside s time id W V o.content.children cs) :
    Likewise Eq id s s' time W V x o o' := by
  have hplace : ∀ m m' w w' : Matrix3x2 K, m.Like Eq m' → W x w w' →
      V (m.andThen w) (m'.andThen w') := by
    intro m m' w w' hm hw
    rw [hm.eq]
    exact hV m' w w' hw
  cases hcontent : o.content with
  | containerVisual v ds =>
    rw [hcontent] at hc inside
    exact .of_visual h hf (.inl hcontent) (.inl hc) (.refl v) hplace inside
  | shapeVisual v ds =>
    rw [hcontent] at hc inside
    exact .of_visual h hf (.inr hcontent) (.inr hc) (.refl v) hplace inside
  | containerShape t ds =>
    rw [hcontent] at hc inside
    exact .of_containerShape h hf hcontent hc (.refl t) hplace inside
  | spriteShape a =>
    rw [hcontent] at hc
    exact .of_sprite h hf hcontent hc (.refl a) (.refl a.transform) hplace
  | _ => simp [hcontent, Content.isDrawn] at hdrawn

/-- An object of which at most the list is edited, in worlds that are related as places are. -/
theorem Likewise.of_withChildren (hR : Placing R) (h : s.Mirrors Eq id A rank s')
    (hf : Facing Eq id A s s' x o o') (hdrawn : o.content.isDrawn = true) {time : Int64}
    {W : ObjectId → Matrix3x2 K → Matrix3x2 K → Prop} {cs : List ObjectId}
    (hc : o'.content = o.content.withChildren cs) (hW : ∀ w w', W x w w' → R w w')
    (inside : Inside s time id W R o.content.children cs) : Likewise Eq id s s' time W R x o o' :=
  .of_list h hf hdrawn hc (fun m w w' hw => hR.follow m (hW w w' hw)) inside

/-! ## Editing one object -/

/-- **An edit of one object keeps the picture** if the object is drawn likewise before and after,
and refers to nothing new but what it referred to through others. -/
theorem Reduced.edit (hR : Placing R) (h : Reduced R A rank s₀ s) (ho : s.get? x = some o)
    {f : Object K → Object K} (he : s.Edited (editOf [x] f) s') (hlike : o.Counterpart Eq id (f o))
    (htargets : A x → ∀ t ∈ (f o).targets, t ∈ o.targets ∨ ∃ c ∈ o.targets, s.Refers c t)
    (hlikewise : ∀ time, s.Mirrors Eq id A rank s' → Facing Eq id A s s' x o (f o) →
      o.content.isDrawn = true → Likewise Eq id s s' time (fun _ => R) R x o (f o)) :
    Reduced R A rank s₀ s' := by
  have hmirrors : s.Mirrors Eq id A rank s' := by
    refine h.ranked.mirrors he fun y p _ hp => ?_
    rcases editOf_singleton_cases f ho hp with ⟨rfl, rfl, hedit⟩ | ⟨-, hedit⟩
    · rw [hedit]
      exact hlike
    · rw [hedit]
      exact .refl p
  refine h.next hR (h.ranked.edited_one ho he htargets) he.root fun time => ?_
  refine sampleAt_agree (W := fun _ => R) hmirrors (fun y p p' hf hdrawn => ?_) h.root
    he.root.symm (hR.refl _)
  obtain rfl := hf.eq_of_edited he
  rcases editOf_singleton_cases f ho hf.left with ⟨rfl, rfl, hedit⟩ | ⟨-, hedit⟩
  · rw [hedit] at hf ⊢
    exact hlikewise time hmirrors hf hdrawn
  · rw [hedit] at hf ⊢
    exact .of_withChildren hR hmirrors hf hdrawn p.content.withChildren_children.symm
      (fun _ _ hw => hw) (.same fun _ _ _ _ hw => hw)

/-- **An edit of one list keeps the picture** if entries are kept or dissolve. -/
theorem Reduced.relist (hR : Placing R) (h : Reduced R A rank s₀ s) (ho : s.get? x = some o)
    {cs : List ObjectId}
    (he : s.Edited (editOf [x] fun o => { o with content := o.content.withChildren cs }) s')
    (inside : A x → ∀ time, Inside s time id (fun _ => R) R o.content.children cs) :
    Reduced R A rank s₀ s' := by
  refine h.edit hR ho he ⟨(Object.Counterpart.refl o).animators, ?_⟩ (fun hx t ht => ?_)
    fun time hmirrors hf hdrawn =>
      .of_withChildren hR hmirrors hf hdrawn rfl (fun _ _ hw => hw) (inside hf.mem time)
  · cases o.content with
    | containerVisual => exact .containerVisual _ _ _ _
    | shapeVisual => exact .shapeVisual _ _ _ _
    | containerShape => exact .containerShape _ _ _ _
    | _ => exact .refl _
  · rcases Object.mem_targets_withChildren ht with hcs | hold
    · rcases (inside hx 0).mem_or_refers t hcs with hkept | ⟨c, hc, hct⟩
      · exact .inl (Object.mem_targets_of_mem_children hkept)
      · exact .inr ⟨c, Object.mem_targets_of_mem_children hc, hct⟩
    · exact .inl hold

namespace Reduction

variable {read : List ObjectId} {done : Reduction}

/-! ## Dead containers -/

omit [Scalar K] in
/-- What is dead is a container without shapes. -/
theorem exists_of_isDead (h : isDead o = true) : ∃ t, o.content = .containerShape t [] := by
  unfold isDead at h
  split at h
  · exact ⟨_, by assumption⟩
  · nomatch h

theorem filter_eq_flatMap {α : Type} (p : α → Bool) (l : List α) :
    l.filter p = l.flatMap fun a => if p a then [a] else [] := by
  induction l with
  | nil => rfl
  | cons a l ih => cases hp : p a <;> simp [hp, ih]

/-- Every id of the list is that of a container without shapes. -/
def AllDead (dead : List ObjectId) (s : Scene K) : Prop :=
  ∀ d ∈ dead, ∃ o, s.get? d = some o ∧ isDead o = true

omit [Scalar K] in
/-- What is counted as dead is dead. -/
theorem allDead_deadContainers (s : Scene K) : AllDead (deadContainers s) s := by
  intro d hd
  simp only [deadContainers, List.mem_filter, Bool.and_eq_true, Option.any_eq_true] at hd
  exact hd.2.2

omit [Scalar K] in
theorem children_of_shapes? {c : Content K} {shapes : List ObjectId}
    (h : c.shapes? = some shapes) : c.children = shapes := by
  cases c with
  | shapeVisual => exact Option.some.inj h
  | containerShape => exact Option.some.inj h
  | _ => simp [Content.shapes?] at h

/-- **Dropping dead containers keeps the picture**, and those that were dead stay dead. -/
theorem dropDead_preserves (hR : Placing R) (dead : List ObjectId) (x : ObjectId) :
    Editing.Preserves (fun s => Reduced R A rank s₀ s ∧ AllDead dead s) (dropDead dead x) := by
  intro s s' done h hstep
  rcases dropDead_cases hstep with rfl | ⟨o, shapes, ho, hshapes, he⟩
  · exact h
  · have hchildren := children_of_shapes? hshapes
    constructor
    · refine h.1.relist hR ho he fun hx time => ?_
      rw [filter_eq_flatMap, hchildren]
      refine .of_flatMap fun c hc => ?_
      by_cases hdead : c ∈ dead
      · -- it draws nothing, so nothing can stand in its place
        obtain ⟨d, hd, hempty⟩ := h.2 c hdead
        obtain ⟨t, ht⟩ := exists_of_isDead hempty
        have hcA := h.1.ranked.closed hx
          (Scene.refers_of_get? ho (Object.mem_targets_of_mem_children (hchildren ▸ hc)))
        have hgone : (if !dead.contains c then [c] else []) = [] := by simp [hdead]
        rw [hgone]
        exact .inr ⟨.identity, h.1.ranked.dissolves_empty hcA hd time ht _, by simp⟩
      · exact .inl (by simp [hdead])
    · -- a list that is empty stays empty
      intro d hd
      obtain ⟨p, hp, hempty⟩ := h.2 d hd
      refine ⟨_, he.get? hp, ?_⟩
      rcases editOf_singleton_cases (fun p => { p with
          content := p.content.withChildren (shapes.filter fun c => !dead.contains c) })
        ho hp with ⟨-, rfl, hedit⟩ | ⟨-, hedit⟩
      · obtain ⟨t, ht⟩ := exists_of_isDead hempty
        rw [ht] at hshapes
        obtain rfl := Option.some.inj hshapes
        rw [hedit]
        simp [isDead, ht, Content.withChildren]
      · rw [hedit]
        exact hempty

/-! ## Folding -/

/-- What folding leaves of a content. -/
inductive Folds : Content K → Content K → Prop
  | containerShape (t : ShapeTransform K) (cs : List ObjectId) :
      Folds (.containerShape t cs) (.containerShape t.fold cs)
  | spriteShape (a : Sprite K) :
      Folds (.spriteShape a) (.spriteShape { a with transform := a.transform.fold })
  | containerVisual (v : Visual K) (cs : List ObjectId) :
      Folds (.containerVisual v cs) (.containerVisual v.fold cs)
  | shapeVisual (v : Visual K) (cs : List ObjectId) :
      Folds (.shapeVisual v cs) (.shapeVisual v.fold cs)

/-- Folding a content changes its transform only. -/
theorem folds_of_foldContent? {c c' : Content K} {n : Reduction}
    (h : foldContent? c = some (c', n)) : Folds c c' := by
  unfold foldContent? at h
  split at h
  · split at h
    · cases h
      exact .containerShape _ _
    · nomatch h
  · split at h
    · cases h
      exact .spriteShape _
    · nomatch h
  · split at h
    · cases h
      exact .containerVisual _ _
    · nomatch h
  · split at h
    · cases h
      exact .shapeVisual _ _
    · nomatch h
  · nomatch h

omit [Scalar K] in
theorem targets_of_references_eq {content : Content K}
    (h : content.references = o.content.references) :
    Object.targets { o with content } = o.targets := by
  simp only [Object.targets, Object.references, h]
  rfl

/-- Where nothing drives a shape, its place before and after is what its settings amount to. -/
theorem shapeMatrix_still_agree (hsame : o'.attached = o.attached)
    (hstill : o.attached.animatesAny transformProperties = false) (time : Int64)
    {t t' : ShapeTransform K} {P : Matrix3x2 K → Matrix3x2 K → Prop}
    (hP : P t.toMatrix t'.toMatrix) :
    Agree P (Moment.shapeMatrix ⟨s, time⟩ x o t) (Moment.shapeMatrix ⟨s', time⟩ x o' t') := by
  rw [Moment.shapeMatrix_still ⟨s, time⟩ x hstill,
    Moment.shapeMatrix_still ⟨s', time⟩ x (hsame ▸ hstill)]
  exact .ok hP

/-- A folded visual is drawn likewise, since no part of its transform is driven. -/
theorem visualState_fold_agree (hR : Placing R) (h : s.Mirrors Eq id A rank s')
    (hf : Facing Eq id A s s' x o o') (hsame : o'.attached = o.attached)
    (hstill : o.attached.animatesAny transformProperties = false) (time : Int64) (v : Visual K) :
    Agree (fun a b => (∀ w w', R w w' → R (a.1.andThen w) (b.1.andThen w')) ∧
        a.2.1 = b.2.1 ∧ a.2.2 = b.2.2)
      (Moment.visualState ⟨s, time⟩ x o v) (Moment.visualState ⟨s', time⟩ x o' v.fold) := by
  rw [Moment.visualState_still ⟨s, time⟩ x hstill,
    Moment.visualState_still ⟨s', time⟩ x (hsame ▸ hstill)]
  refine (h.scalar_agree hf time (R := Eq) (fun _ _ => congrArg some) rfl _).bind ?_
  rintro opacity _ rfl
  refine (h.animated_agree hf time _).bind fun a b hab => .ok ⟨fun _ _ => hR.foldVisual v, rfl, ?_⟩
  cases hab with
  | none => rfl
  | some hab => cases hab <;> rfl

/-- **Folding keeps the picture.** -/
theorem foldObject_preserves (hR : Placing R) (read : List ObjectId) (x : ObjectId) :
    Editing.Preserves (Reduced R A rank s₀) (foldObject read x) := by
  intro s s' done h hstep
  -- either nothing was folded, or one content was, on an object that stands still
  rcases foldObject_cases hstep with rfl | ⟨o, content, n, ho, hstill, hfold, he⟩
  · exact h
  · have hfolds := folds_of_foldContent? hfold
    refine h.edit hR ho he ⟨(Object.Counterpart.refl o).animators, ?_⟩ (fun _ t ht => ?_)
      fun time hmirrors hf _ => ?_
    · generalize o.content = c at hfolds
      cases hfolds with
      | containerShape => exact .containerShape _ _ _ _
      | spriteShape => exact .spriteShape _ _
      | containerVisual => exact .containerVisual _ _ _ _
      | shapeVisual => exact .shapeVisual _ _ _ _
    · have hreferences : content.references = o.content.references := by
        generalize o.content = c at hfolds
        cases hfolds <;> rfl
      rw [targets_of_references_eq hreferences] at ht
      exact .inl ht
    -- the picture: states and matrices of what is folded agree up to places
    · have hstate := visualState_fold_agree hR hmirrors hf rfl hstill time
      have hmatrix : ∀ t : ShapeTransform K,
          Agree (fun m m' => ∀ w w', R w w' → R (m.andThen w) (m'.andThen w'))
            (Moment.shapeMatrix ⟨s, time⟩ x o t)
            (Moment.shapeMatrix ⟨s', time⟩ x { o with content } t.fold) :=
        fun t => shapeMatrix_still_agree rfl hstill time fun _ _ => hR.fold t
      have hsame : ∀ cs, Inside s time id (fun _ => R) R cs cs :=
        fun _ => .same fun _ _ _ _ hw => hw
      generalize hc : o.content = c at hfolds
      cases hfolds with
      | containerShape t cs => exact .containerShape R hc rfl (hmatrix t) (hsame cs)
      | spriteShape a =>
        have hparts := Sprite.Counterpart.refl a
        exact .sprite hc rfl
          ⟨hparts.geometry, hparts.fillBrush, hparts.strokeBrush, hparts.thickness⟩
          (hmatrix a.transform)
      | containerVisual v cs => exact .visual R (.inl hc) (.inl rfl) (hstate v) (hsame cs)
      | shapeVisual v cs => exact .visual R (.inr hc) (.inr rfl) (hstate v) (hsame cs)

/-! ## Splicing -/

omit [Scalar K] in
/-- What is spliced carries and sets nothing, and it is a container of shapes in a list of
shapes. -/
theorem exists_of_replacement? {inShapes : Bool} {c : ObjectId} {held : List ObjectId}
    (h : replacement? s read inShapes c = some held) :
    ∃ p, s.get? c = some p ∧ p.attached.isEmpty = true ∧
      (inShapes = true ∧ p.content = .containerShape {} held ∨
        inShapes = false ∧ p.content = .containerVisual {} held) := by
  unfold replacement? at h
  split at h
  · nomatch h
  · obtain ⟨p, hp, hheld⟩ := Option.bind_eq_some_iff.mp h
    refine ⟨p, hp, ?_⟩
    unfold spliceable? at hheld
    split at hheld
    · rename_i t shapes hc
      split at hheld
      · rename_i hbare
        obtain ⟨hempty, hunset⟩ := Bool.and_eq_true_iff.mp hbare
        obtain rfl := Option.some.inj hheld
        exact ⟨hempty, .inl ⟨rfl, by rw [hc, ShapeTransform.eq_of_isUnset hunset]⟩⟩
      · nomatch hheld
    · rename_i v children hc
      split at hheld
      · rename_i hbare
        obtain ⟨hempty, hunset⟩ := Bool.and_eq_true_iff.mp hbare
        obtain rfl := Option.some.inj hheld
        exact ⟨hempty, .inr ⟨rfl, by rw [hc, Visual.eq_of_isUnset hunset]⟩⟩
      · nomatch hheld
    · nomatch hheld

omit [Scalar K] in
/-- What stands for a spliced container is what it holds. -/
theorem refers_of_replacement? {inShapes : Bool} {c g : ObjectId} {held : List ObjectId}
    (h : replacement? s read inShapes c = some held) (hg : g ∈ held) : s.Refers c g := by
  obtain ⟨p, hp, -, hc⟩ := exists_of_replacement? h
  refine Scene.refers_of_get? hp (Object.mem_targets_of_mem_children ?_)
  rcases hc with ⟨-, hc⟩ | ⟨-, hc⟩
  · rw [hc]
    exact hg
  · rw [hc]
    exact hg

/-- The list of an object after splicing. -/
def splicedList (s : Scene K) (read : List ObjectId) (o : Object K) : List ObjectId :=
  o.content.children.flatMap fun c => (replacement? s read o.content.shapes?.isSome c).getD [c]

omit [Scalar K] in
/-- What stands in a spliced list stood there before, or a container that stood there held it. -/
theorem mem_splicedList {g : ObjectId} (hg : g ∈ splicedList s read o) :
    g ∈ o.content.children ∨ ∃ c ∈ o.content.children, ∃ held,
      replacement? s read o.content.shapes?.isSome c = some held ∧ g ∈ held := by
  obtain ⟨c, hc, hgc⟩ := List.mem_flatMap.mp hg
  cases hreplace : replacement? s read o.content.shapes?.isSome c with
  | none =>
    rw [hreplace] at hgc
    obtain rfl := List.mem_singleton.mp hgc
    exact .inl hc
  | some held =>
    rw [hreplace] at hgc
    exact .inr ⟨c, hc, held, hreplace, hgc⟩

omit [Scalar K] in
/-- What stood in a list stands there after splicing, or what it held does. -/
theorem splicedList_of_mem {c : ObjectId} (read : List ObjectId) (s : Scene K)
    (hc : c ∈ o.content.children) :
    c ∈ splicedList s read o ∨ ∃ held,
      replacement? s read o.content.shapes?.isSome c = some held ∧
        ∀ g ∈ held, g ∈ splicedList s read o := by
  cases hreplace : replacement? s read o.content.shapes?.isSome c with
  | none => exact .inl (List.mem_flatMap.mpr ⟨c, hc, by simp [hreplace]⟩)
  | some held =>
    refine .inr ⟨held, rfl, fun g hg => List.mem_flatMap.mpr ⟨c, hc, ?_⟩⟩
    rw [hreplace]
    exact hg

omit [Scalar K] in
/-- After splicing an object refers to nothing new but what it referred to through others. -/
theorem targets_splicedList {t : ObjectId}
    (ht : t ∈ Object.targets { o with content := o.content.withChildren (splicedList s read o) }) :
    t ∈ o.targets ∨ ∃ c ∈ o.targets, s.Refers c t := by
  rcases Object.mem_targets_withChildren ht with hnew | hold
  · rcases mem_splicedList hnew with hkept | ⟨c, hc, held, hreplace, hheld⟩
    · exact .inl (Object.mem_targets_of_mem_children hkept)
    · exact .inr ⟨c, Object.mem_targets_of_mem_children hc, refers_of_replacement? hreplace hheld⟩
  · exact .inl hold

/-- **Splicing keeps the picture.** -/
theorem spliceObject_preserves (hR : Placing R) (hone : ∀ k : K, k * 1 = k) (read : List ObjectId)
    (x : ObjectId) : Editing.Preserves (Reduced R A rank s₀) (spliceObject read x) := by
  intro s s' done h hstep
  rcases spliceObject_cases hstep with rfl | ⟨o, ho, he⟩
  · exact h
  · refine h.relist hR ho he fun _ time => .of_flatMap fun c _ => ?_
    cases hreplace : replacement? s read o.content.shapes?.isSome c with
    | none => exact .inl rfl
    | some held =>
      obtain ⟨p, hp, hbare, hc⟩ := exists_of_replacement? hreplace
      have hrefers : ∀ g ∈ held, s.Refers c g := fun _ => refers_of_replacement? hreplace
      -- the place of what was unset is no place at all, for shapes and for visuals
      rcases hc with ⟨-, hc⟩ | ⟨-, hc⟩
      · exact .inr ⟨_, Moment.dissolves_containerShape (m := ⟨s, time⟩) hp hbare hc,
          fun g hg => ⟨hrefers g hg, fun _ _ => hR.unset⟩⟩
      · exact .inr ⟨_, Moment.dissolves_visual (m := ⟨s, time⟩) hone hp hbare hc,
          fun g hg => ⟨hrefers g hg, fun _ _ => hR.unsetVisual⟩⟩

end Reduction
end Diorama
