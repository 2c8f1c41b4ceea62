/-
  Changing ids and scalars.

  `mapIds` and `mapScalars` change one thing each and keep everything else, so they compose, they
  commute with each other, and they do to the references of an object what they do to the object:
  `mapIds` changes the targets and keeps the slots, `mapScalars` changes nothing.
-/
import Diorama.Object.Reference

namespace Diorama

variable {K L : Type} (f g : ObjectId → ObjectId) (w : K → L)

/-! ## Composition -/

/-- Renaming twice is renaming once by the composition.  The same holds part by part. -/
@[simp] theorem Visual.mapIds_mapIds (v : Visual K) :
    (v.mapIds f).mapIds g = v.mapIds (g ∘ f) := by
  simp [Visual.mapIds]

@[simp] theorem Sprite.mapIds_mapIds (s : Sprite K) :
    (s.mapIds f).mapIds g = s.mapIds (g ∘ f) := by
  simp [Sprite.mapIds]

@[simp] theorem Outline.mapIds_mapIds (o : Outline K) :
    (o.mapIds f).mapIds g = o.mapIds (g ∘ f) := by
  cases o <;> simp [Outline.mapIds]

/-- A value is renamed only where it is a path. -/
@[simp] theorem KeyFrameValue.mapIds_mapIds (v : KeyFrameValue K) :
    (v.mapIds f).mapIds g = v.mapIds (g ∘ f) := by
  cases v <;> simp [KeyFrameValue.mapIds]

@[simp] theorem KeyFrameAnimation.mapIds_mapIds (a : KeyFrameAnimation K) :
    (a.mapIds f).mapIds g = a.mapIds (g ∘ f) := by
  simp [KeyFrameAnimation.mapIds, KeyFrame.mapIds]

@[simp] theorem ExpressionAnimation.mapIds_mapIds (a : ExpressionAnimation) :
    (a.mapIds f).mapIds g = a.mapIds (g ∘ f) := by
  simp [ExpressionAnimation.mapIds]

/-- **Renaming a content twice is renaming it once by the composition.** -/
@[simp] theorem Content.mapIds_mapIds (c : Content K) :
    (c.mapIds f).mapIds g = c.mapIds (g ∘ f) := by
  cases c <;> simp [Content.mapIds]

@[simp] theorem Animator.mapIds_mapIds (a : Animator) :
    (a.mapIds f).mapIds g = a.mapIds (g ∘ f) := by
  simp [Animator.mapIds]

/-- The value at a key frame stays as it is if no object gets another name. -/
theorem KeyFrameValue.mapIds_id (v : KeyFrameValue K) : v.mapIds id = v := by
  cases v <;> rfl

/-- Key frame by key frame. -/
theorem KeyFrameAnimation.mapIds_id (a : KeyFrameAnimation K) : a.mapIds id = a := by
  simp [KeyFrameAnimation.mapIds, KeyFrame.mapIds, KeyFrameValue.mapIds_id]

/-- Renaming every object to itself changes nothing. -/
theorem Content.mapIds_id (c : Content K) : c.mapIds id = c := by
  cases c with
  | geometry outline => cases outline <;> simp [Content.mapIds, Outline.mapIds]
  | keyFrameAnimation a => simp [Content.mapIds, KeyFrameAnimation.mapIds_id]
  | _ => simp [Content.mapIds, Visual.mapIds, Sprite.mapIds, ExpressionAnimation.mapIds]

theorem Animator.mapIds_id (a : Animator) : a.mapIds id = a := by
  simp [Animator.mapIds]

/-! ## Ids and scalars -/

/-- The only id in a visual is that of its clip, which holds no scalar. -/
theorem Visual.mapScalars_mapIds (v : Visual K) :
    (v.mapIds f).mapScalars w = (v.mapScalars w).mapIds f := rfl

theorem Sprite.mapScalars_mapIds (s : Sprite K) :
    (s.mapIds f).mapScalars w = (s.mapScalars w).mapIds f := rfl

/-- Figures hold scalars and groups hold ids; a transformed geometry holds both. -/
theorem Outline.mapScalars_mapIds (o : Outline K) :
    (o.mapIds f).mapScalars w = (o.mapScalars w).mapIds f := by
  cases o <;> rfl

/-- The value of a key frame may be a scalar, and its easing is referred to. -/
theorem KeyFrame.mapScalars_mapIds (k : KeyFrame K) :
    (k.mapIds f).mapScalars w = (k.mapScalars w).mapIds f := by
  obtain ⟨progress, value, easing⟩ := k
  cases value <;> rfl

theorem KeyFrameAnimation.mapScalars_mapIds (a : KeyFrameAnimation K) :
    (a.mapIds f).mapScalars w = (a.mapScalars w).mapIds f := by
  simp [KeyFrameAnimation.mapIds, KeyFrameAnimation.mapScalars, KeyFrame.mapScalars_mapIds]

/-- **Renaming ids and changing scalars can be done in either order.** -/
theorem Content.mapScalars_mapIds (c : Content K) :
    (c.mapIds f).mapScalars w = (c.mapScalars w).mapIds f := by
  cases c <;>
    simp [Content.mapIds, Content.mapScalars, Visual.mapScalars_mapIds, Sprite.mapScalars_mapIds,
      Outline.mapScalars_mapIds, KeyFrameAnimation.mapScalars_mapIds]

/-! ## Kinds -/

/-- An object is of the same kind under other ids. -/
@[simp] theorem Content.kind_mapIds (c : Content K) : (c.mapIds f).kind = c.kind := by
  cases c <;> rfl

/-- An object is of the same kind with other scalars. -/
@[simp] theorem Content.kind_mapScalars (c : Content K) : (c.mapScalars w).kind = c.kind := by
  cases c <;> rfl

/-! ## References -/

/-- The same slot referring to another object. -/
def Reference.retarget (r : Reference) : Reference := { r with target := f r.target }

/-- The slot is kept and the target is renamed. -/
@[simp] theorem Reference.retarget_target (r : Reference) : (r.retarget f).target = f r.target :=
  rfl

/-- A slot that may be empty is empty under other ids as well. -/
@[simp] theorem Reference.one_map (slot : Slot) (id : Option ObjectId) :
    Reference.one slot (id.map f) = (Reference.one slot id).map (·.retarget f) := by
  cases id <;> rfl

/-- The slots of a list are numbered, and a renamed list has the same numbers. -/
@[simp] theorem Reference.many_map (slot : Nat → Slot) (ids : List ObjectId) :
    Reference.many slot (ids.map f) = (Reference.many slot ids).map (·.retarget f) := by
  simp [Reference.many, List.zipIdx_map, Reference.retarget]

/-- What a key frame refers to: the path that is its value, and its easing. -/
@[simp] theorem Reference.ofKeyFrame_mapIds (k : KeyFrame K) (i : Nat) :
    Reference.ofKeyFrame (k.mapIds f) i = (Reference.ofKeyFrame k i).map (·.retarget f) := by
  obtain ⟨progress, value, easing⟩ := k
  cases value <;>
    simp [Reference.ofKeyFrame, KeyFrame.mapIds, KeyFrameValue.mapIds, Reference.retarget]

/-- What an animator refers to: its animation and its controller. -/
@[simp] theorem Reference.ofAnimator_mapIds (a : Animator) (i : Nat) :
    Reference.ofAnimator (a.mapIds f) i = (Reference.ofAnimator a i).map (·.retarget f) := by
  simp [Reference.ofAnimator, Animator.mapIds, Reference.retarget]

/-- **The references of a renamed content are the renamed references, slot by slot.** -/
theorem Content.references_mapIds (c : Content K) :
    (c.mapIds f).references = c.references.map (·.retarget f) := by
  cases c with
  | geometry outline =>
    cases outline <;> simp [Content.mapIds, Outline.mapIds, Content.references, Reference.retarget]
  | keyFrameAnimation a =>
    simp [Content.mapIds, KeyFrameAnimation.mapIds, Content.references, List.zipIdx_map,
      List.flatMap_map, List.map_flatMap]
  | expressionAnimation a =>
    have h : (a.mapIds f).parameters.map (·.object) = (a.parameters.map (·.object)).map f := by
      simp [ExpressionAnimation.mapIds]
    simp only [Content.mapIds, Content.references, h, Reference.many_map]
  | _ => simp [Content.mapIds, Content.references, Visual.mapIds, Sprite.mapIds]

/-- The animators of an object are numbered as they were. -/
theorem Object.animatorReferences_mapIds (o : Object K) :
    (o.mapIds f).animatorReferences = o.animatorReferences.map (·.retarget f) := by
  simp [Object.animatorReferences, Object.mapIds, Attachments.mapIds, List.zipIdx_map,
    List.flatMap_map, List.map_flatMap]

/-- Changing the ids of an object changes what it refers to. -/
theorem Object.targets_mapIds (o : Object K) : (o.mapIds f).targets = o.targets.map f := by
  have hcontent : (o.mapIds f).content.references = o.content.references.map (·.retarget f) :=
    o.content.references_mapIds f
  simp [Object.targets, Object.references, hcontent, o.animatorReferences_mapIds f,
    Function.comp_def]

/-! ## Only what is referred to counts -/

section

variable {f g}

/-- Renamings that agree on what is in a slot agree on the slot. -/
theorem Reference.map_congr_of_one {slot : Slot} {id : Option ObjectId}
    (h : ∀ r ∈ Reference.one slot id, f r.target = g r.target) : id.map f = id.map g := by
  cases id with
  | none => rfl
  | some a => exact congrArg some (h ⟨slot, a⟩ List.mem_cons_self)

/-- Renamings that agree on every entry of a list agree on the list. -/
theorem Reference.map_congr_of_many {slot : Nat → Slot} {ids : List ObjectId}
    (h : ∀ r ∈ Reference.many slot ids, f r.target = g r.target) : ids.map f = ids.map g := by
  refine List.map_congr_left fun a ha => ?_
  obtain ⟨i, hi⟩ := List.getElem?_of_mem ha
  exact h ⟨slot i, a⟩ (List.mem_map.mpr ⟨(a, i), List.mem_zipIdx_iff_getElem?.mpr hi, rfl⟩)

/-- Renamings that agree on the path and the easing of a key frame rename it alike. -/
theorem KeyFrame.mapIds_congr {k : KeyFrame K} {i : Nat}
    (h : ∀ r ∈ Reference.ofKeyFrame k i, f r.target = g r.target) : k.mapIds f = k.mapIds g := by
  obtain ⟨progress, value, easing⟩ := k
  have heasing : easing.map f = easing.map g :=
    Reference.map_congr_of_one fun r hr => h r (List.mem_append_right _ hr)
  have hvalue : value.mapIds f = value.mapIds g := by
    cases value with
    | path a => exact congrArg _ (h ⟨.keyFramePath i, a⟩ List.mem_cons_self)
    | _ => rfl
  simp only [KeyFrame.mapIds, heasing, hvalue]

/-- Two renamings that agree on what a content refers to rename it alike. -/
theorem Content.mapIds_congr {c : Content K}
    (h : ∀ r ∈ c.references, f r.target = g r.target) : c.mapIds f = c.mapIds g := by
  cases c with
  | containerVisual v cs =>
    have hclip := Reference.map_congr_of_one fun r hr => h r (List.mem_append_left _ hr)
    have hcs := Reference.map_congr_of_many fun r hr => h r (List.mem_append_right _ hr)
    simp only [Content.mapIds, Visual.mapIds, hclip, hcs]
  | shapeVisual v cs =>
    have hclip := Reference.map_congr_of_one fun r hr => h r (List.mem_append_left _ hr)
    have hcs := Reference.map_congr_of_many fun r hr => h r (List.mem_append_right _ hr)
    simp only [Content.mapIds, Visual.mapIds, hclip, hcs]
  | containerShape t cs => simp only [Content.mapIds, Reference.map_congr_of_many h]
  | spriteShape a =>
    have hgeometry := Reference.map_congr_of_one fun r hr =>
      h r (List.mem_append_left _ (List.mem_append_left _ hr))
    have hfill := Reference.map_congr_of_one fun r hr =>
      h r (List.mem_append_left _ (List.mem_append_right _ hr))
    have hstroke := Reference.map_congr_of_one fun r hr => h r (List.mem_append_right _ hr)
    simp only [Content.mapIds, Sprite.mapIds, hgeometry, hfill, hstroke]
  | pathGeometry t p => simp only [Content.mapIds, Reference.map_congr_of_one h]
  | path source => simp only [Content.mapIds, Reference.map_congr_of_one h]
  | geometry outline =>
    cases outline with
    | figures => rfl
    | group mode ids => simp only [Content.mapIds, Outline.mapIds, Reference.map_congr_of_many h]
    | transformed source m =>
      have hsource := h ⟨.source 0, source⟩ List.mem_cons_self
      simp only [Content.mapIds, Outline.mapIds] at hsource ⊢
      rw [hsource]
  | geometricClip a => simp only [Content.mapIds, Reference.map_congr_of_one h]
  | keyFrameAnimation a =>
    have hframes : a.frames.map (·.mapIds f) = a.frames.map (·.mapIds g) := by
      refine List.map_congr_left fun k hk => ?_
      obtain ⟨i, hi⟩ := List.getElem?_of_mem hk
      refine KeyFrame.mapIds_congr (i := i) fun r hr => h r ?_
      exact List.mem_flatMap.mpr ⟨(k, i), List.mem_zipIdx_iff_getElem?.mpr hi, hr⟩
    simp only [Content.mapIds, KeyFrameAnimation.mapIds, hframes]
  | expressionAnimation a =>
    have hobjects : (a.parameters.map (·.object)).map f = (a.parameters.map (·.object)).map g :=
      Reference.map_congr_of_many h
    have hparameters : ∀ p ∈ a.parameters, f p.object = g p.object := by
      rw [List.map_map, List.map_map] at hobjects
      exact List.map_inj_left.mp hobjects
    simp only [Content.mapIds, ExpressionAnimation.mapIds]
    rw [List.map_congr_left fun p hp => by rw [hparameters p hp]]
  | _ => rfl

/-- **Two renamings that agree on what an object refers to rename it alike.** -/
theorem Object.mapIds_congr {o : Object K} (h : ∀ t ∈ o.targets, f t = g t) :
    o.mapIds f = o.mapIds g := by
  have hreferences : ∀ r ∈ o.references, f r.target = g r.target :=
    fun r hr => h r.target (List.mem_map_of_mem hr)
  have hanimators :
      o.attached.animators.map (·.mapIds f) = o.attached.animators.map (·.mapIds g) := by
    refine List.map_congr_left fun a ha => ?_
    obtain ⟨i, hi⟩ := List.getElem?_of_mem ha
    have hrefs : ∀ r ∈ Reference.ofAnimator a i, f r.target = g r.target := fun r hr =>
      hreferences r (List.mem_append_right _
        (List.mem_flatMap.mpr ⟨(a, i), List.mem_zipIdx_iff_getElem?.mpr hi, hr⟩))
    have hanimation := hrefs ⟨.animation i, a.animation⟩ List.mem_cons_self
    have hcontroller := Reference.map_congr_of_one fun r hr => hrefs r (List.mem_cons_of_mem _ hr)
    simp only [Animator.mapIds] at hanimation ⊢
    rw [hanimation, hcontroller]
  simp only [Object.mapIds, Attachments.mapIds, hanimators,
    Content.mapIds_congr fun r hr => hreferences r (List.mem_append_left _ hr)]

/-- A renaming that fixes what an object refers to leaves the object as it is. -/
theorem Object.mapIds_of_fixed {o : Object K} (h : ∀ t ∈ o.targets, f t = t) : o.mapIds f = o := by
  rw [Object.mapIds_congr (g := id) h]
  have hanimators : o.attached.animators.map (·.mapIds id) = o.attached.animators := by
    simp [Animator.mapIds_id]
  simp only [Object.mapIds, Attachments.mapIds, hanimators, Content.mapIds_id]

end

/-- Changing the scalars of a content keeps its references. -/
theorem Content.references_mapScalars (c : Content K) :
    (c.mapScalars w).references = c.references := by
  cases c with
  | geometry outline => cases outline <;> rfl
  | keyFrameAnimation a =>
    have h : ∀ (k : KeyFrame K) (i : Nat),
        Reference.ofKeyFrame (k.mapScalars w) i = Reference.ofKeyFrame k i := by
      intro k i
      obtain ⟨progress, value, easing⟩ := k
      cases value <;> rfl
    simp [Content.mapScalars, KeyFrameAnimation.mapScalars, Content.references, List.zipIdx_map,
      List.flatMap_map, h]
  | _ => rfl

end Diorama
