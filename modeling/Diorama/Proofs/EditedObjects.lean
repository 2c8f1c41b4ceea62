/-
  What the edits of a reduction leave of an object.

  Folding and pushing down change nothing but transforms (`Content.Restyled`).  They keep references
  and lists, and a transform that is a matrix at most stays one.  Dropping and splicing change
  nothing but lists.

  Whatever the edits are, an object that is not drawn stays as it is, and an object that sets no
  property to its default value sets none afterwards (`Object.Remains`): a matrix is only set if it
  is not the identity, and that is the test by which defaults are unset.
-/
import Diorama.Proofs.ReductionSteps

namespace Diorama

variable {K : Type} [Scalar K]

/-! ## What edits leave of an object -/

/-- No property is set to its default value. -/
def Content.IsLean (c : Content K) : Prop := c.withoutDefaults = c

/-- What a reduction leaves of an object: what is attached, and everything if it is not drawn. -/
structure Object.Remains (o o' : Object K) : Prop where
  attached : o'.attached = o.attached
  isDrawn : o'.content.isDrawn = o.content.isDrawn
  undrawn : o.content.isDrawn = false → o' = o
  lean : o.content.IsLean → o'.content.IsLean

/-- The object with another list. -/
def Object.relist (cs : List ObjectId) (o : Object K) : Object K :=
  { o with content := o.content.withChildren cs }

namespace Object.Remains

theorem refl (o : Object K) : o.Remains o := ⟨rfl, rfl, fun _ => rfl, fun h => h⟩

theorem trans {o o' o'' : Object K} (h : o.Remains o') (h' : o'.Remains o'') : o.Remains o'' where
  attached := h'.attached.trans h.attached
  isDrawn := h'.isDrawn.trans h.isDrawn
  undrawn hdrawn := (h'.undrawn (h.isDrawn.trans hdrawn)).trans (h.undrawn hdrawn)
  lean hlean := h'.lean (h.lean hlean)

/-- Changing a list touches neither what is attached nor any property with a default. -/
theorem relist (cs : List ObjectId) (o : Object K) : o.Remains (o.relist cs) := by
  obtain ⟨attached, content⟩ := o
  refine ⟨rfl, ?_, fun hdrawn => ?_, fun hlean => ?_⟩
  · cases content <;> rfl
  · cases content with
    | containerVisual => cases hdrawn
    | shapeVisual => cases hdrawn
    | containerShape => cases hdrawn
    | _ => rfl
  · cases content with
    | containerVisual v ds =>
      obtain ⟨hv, -⟩ := Content.containerVisual.inj hlean
      exact congrArg (Content.containerVisual · cs) hv
    | shapeVisual v ds =>
      obtain ⟨hv, -⟩ := Content.shapeVisual.inj hlean
      exact congrArg (Content.shapeVisual · cs) hv
    | containerShape t ds =>
      obtain ⟨ht, -⟩ := Content.containerShape.inj hlean
      exact congrArg (Content.containerShape · cs) ht
    | _ => exact hlean

end Object.Remains

/-! ## Other lists -/

/-- A choice that comes out as nothing was not taken. -/
theorem eq_false_of_ite_eq_none {α : Type} {b : Bool} {a : α}
    (h : (if b = true then some a else none) = none) : b = false := by
  cases b with
  | true => cases h
  | false => rfl

namespace Content

variable {c : Content K} {cs : List ObjectId}

omit [Scalar K] in
/-- What an expression reads has nothing to do with lists. -/
theorem read_withChildren : (c.withChildren cs).read = c.read := by
  cases c <;> rfl

omit [Scalar K] in
/-- The list of a container of shapes is the one it was given. -/
theorem shapes?_withChildren {shapes : List ObjectId}
    (h : (c.withChildren cs).shapes? = some shapes) :
    shapes = cs ∧ c.shapes? = some c.children := by
  cases c with
  | shapeVisual => exact ⟨(Option.some.inj h).symm, rfl⟩
  | containerShape => exact ⟨(Option.some.inj h).symm, rfl⟩
  | _ => cases h

/-- A transform that does not fold, does not fold with another list either. -/
theorem foldContent?_withChildren (h : Reduction.foldContent? c = none) :
    Reduction.foldContent? (c.withChildren cs) = none := by
  cases c with
  | containerVisual v ds => exact if_neg (by simp [eq_false_of_ite_eq_none h])
  | shapeVisual v ds => exact if_neg (by simp [eq_false_of_ite_eq_none h])
  | containerShape t ds => exact if_neg (by simp [eq_false_of_ite_eq_none h])
  | _ => exact h

end Content

/-! ## Restyled objects -/

/-- Another transform that is a matrix at most if the first one is. -/
structure ShapeTransform.Restyled (t t' : ShapeTransform K) : Prop where
  separate : t.isSeparate = false → t'.isSeparate = false
  lean : t.withoutDefaults = t → t'.withoutDefaults = t'

/-- The same visual with another transform, which is a matrix at most if the first one is. -/
structure Visual.Restyled (v v' : Visual K) : Prop where
  clip : v'.clip = v.clip
  separate : v.isSeparate = false → v'.isSeparate = false
  lean : v.withoutDefaults = v → v'.withoutDefaults = v'

/-- At most the transform is another one. -/
inductive Content.Restyled : Content K → Content K → Prop
  | same (c : Content K) : Restyled c c
  | containerVisual {v v' : Visual K} (cs : List ObjectId) (hv : v.Restyled v') :
      Restyled (.containerVisual v cs) (.containerVisual v' cs)
  | shapeVisual {v v' : Visual K} (cs : List ObjectId) (hv : v.Restyled v') :
      Restyled (.shapeVisual v cs) (.shapeVisual v' cs)
  | containerShape {t t' : ShapeTransform K} (cs : List ObjectId) (ht : t.Restyled t') :
      Restyled (.containerShape t cs) (.containerShape t' cs)
  | spriteShape {a : Sprite K} {t' : ShapeTransform K} (ht : a.transform.Restyled t') :
      Restyled (.spriteShape a) (.spriteShape { a with transform := t' })

/-- The object with the same attachments and at most another transform. -/
structure Object.Restyled (o o' : Object K) : Prop where
  attached : o'.attached = o.attached
  content : o.content.Restyled o'.content

/-- A matrix that is set only if it is not the identity is not its default. -/
theorem dropDefault_unlessIdentity (m : Matrix3x2 K) :
    dropDefault .identity m.unlessIdentity = m.unlessIdentity := by
  unfold Matrix3x2.unlessIdentity Matrix3x2.isIdentity
  split
  · rfl
  · rename_i hother
    exact if_neg hother

/-- The same in space. -/
theorem dropDefault_unlessIdentity4 (m : Matrix4x4 K) :
    dropDefault .identity m.unlessIdentity = m.unlessIdentity := by
  unfold Matrix4x4.unlessIdentity Matrix4x4.isIdentity
  split
  · rfl
  · rename_i hother
    exact if_neg hother

/-- Folding a transform leaves at most a matrix, which is set only if it is needed. -/
theorem ShapeTransform.restyled_fold (t : ShapeTransform K) : t.Restyled t.fold where
  separate _ := rfl
  lean _ := by
    simp only [ShapeTransform.fold, ShapeTransform.withoutDefaults, dropDefault_unlessIdentity]
    rfl

/-- Folding the transform of a visual touches neither its clip nor its other settings. -/
theorem Visual.restyled_fold (v : Visual K) : v.Restyled v.fold where
  clip := rfl
  separate _ := rfl
  lean hlean := by
    obtain ⟨centerPoint, offset, scale, rotation, matrix, size, opacity, isVisible, clip⟩ := v
    simp only [Visual.withoutDefaults, Visual.mk.injEq] at hlean
    simp only [Visual.fold, Visual.withoutDefaults, dropDefault_unlessIdentity4, hlean]
    rfl

namespace Reduction

/-- A matrix that follows another one is still all that is set, if it was all before. -/
theorem restyled_followedBy (m : Matrix3x2 K) (t : ShapeTransform K) :
    t.Restyled (followedBy m t) where
  separate h := h
  lean hlean := by
    obtain ⟨centerPoint, offset, scale, rotation, matrix⟩ := t
    simp only [ShapeTransform.withoutDefaults, ShapeTransform.mk.injEq] at hlean
    simp only [followedBy, ShapeTransform.withoutDefaults, dropDefault_unlessIdentity, hlean]

/-- Taking a matrix over changes nothing but the transform of a shape. -/
theorem restyled_takeOver (m : Matrix3x2 K) (c : Content K) : c.Restyled (takeOver m c) := by
  cases c with
  | containerShape t cs => exact .containerShape cs (restyled_followedBy m t)
  | spriteShape a => exact .spriteShape (restyled_followedBy m a.transform)
  | _ => exact .same _

/-- Dropping the matrix changes nothing but the transform of a container. -/
theorem restyled_dropMatrix (c : Content K) : c.Restyled (dropMatrix c) := by
  cases c with
  | containerShape t cs =>
    refine .containerShape cs ⟨fun h => h, fun hlean => ?_⟩
    obtain ⟨centerPoint, offset, scale, rotation, matrix⟩ := t
    simp only [ShapeTransform.withoutDefaults, ShapeTransform.mk.injEq] at hlean
    simp only [ShapeTransform.withoutDefaults, hlean]
    rfl
  | _ => exact .same _

/-- Folding changes nothing but a transform, whichever kind of object it is in. -/
theorem restyled_of_folds {c c' : Content K} (h : Folds c c') : c.Restyled c' := by
  cases h with
  | containerShape t cs => exact .containerShape cs t.restyled_fold
  | spriteShape a => exact .spriteShape a.transform.restyled_fold
  | containerVisual v cs => exact .containerVisual cs v.restyled_fold
  | shapeVisual v cs => exact .shapeVisual cs v.restyled_fold

end Reduction

namespace Content.Restyled

variable {c c' : Content K} (h : c.Restyled c')

include h

/-- A list does not change with the transform. -/
theorem children : c'.children = c.children := by
  cases h <;> rfl

/-- Shapes are listed as before. -/
theorem shapes? : c'.shapes? = c.shapes? := by
  cases h <;> rfl

theorem read : c'.read = c.read := by
  cases h <;> rfl

theorem isDrawn : c'.isDrawn = c.isDrawn := by
  cases h <;> rfl

/-- Only what is drawn has a transform. -/
theorem eq_of_undrawn (hdrawn : c.isDrawn = false) : c' = c := by
  cases h with
  | same => rfl
  | _ => cases hdrawn

/-- What an object refers to does not change with its transform. -/
theorem references : c'.references = c.references := by
  cases h with
  | same => rfl
  | containerVisual cs hv => simp only [Content.references, hv.clip]
  | shapeVisual cs hv => simp only [Content.references, hv.clip]
  | containerShape cs ht => rfl
  | spriteShape ht => rfl

/-- No property is set to its default value by a change of the transform. -/
theorem lean (hlean : c.IsLean) : c'.IsLean := by
  cases h with
  | same => exact hlean
  | containerVisual cs hv =>
    exact congrArg (Content.containerVisual · cs) (hv.lean (Content.containerVisual.inj hlean).1)
  | shapeVisual cs hv =>
    exact congrArg (Content.shapeVisual · cs) (hv.lean (Content.shapeVisual.inj hlean).1)
  | containerShape cs ht =>
    exact congrArg (Content.containerShape · cs) (ht.lean (Content.containerShape.inj hlean).1)
  | @spriteShape a t' ht =>
    have hparts := Content.spriteShape.inj hlean
    have htransform := ht.lean (congrArg Sprite.transform hparts)
    have hstroke : a.stroke.withoutDefaults = a.stroke := congrArg Sprite.stroke hparts
    show Content.spriteShape { a with
      transform := t'.withoutDefaults, stroke := a.stroke.withoutDefaults } = _
    rw [htransform, hstroke]

/-- A transform that is a matrix at most stays one. -/
theorem foldContent?_eq_none (hnone : Reduction.foldContent? c = none) :
    Reduction.foldContent? c' = none := by
  cases h with
  | same => exact hnone
  | containerVisual cs hv => exact if_neg (by simp [hv.separate (eq_false_of_ite_eq_none hnone)])
  | shapeVisual cs hv => exact if_neg (by simp [hv.separate (eq_false_of_ite_eq_none hnone)])
  | containerShape cs ht => exact if_neg (by simp [ht.separate (eq_false_of_ite_eq_none hnone)])
  | spriteShape ht => exact if_neg (by simp [ht.separate (eq_false_of_ite_eq_none hnone)])

end Content.Restyled

namespace Object.Restyled

theorem refl (o : Object K) : o.Restyled o := ⟨rfl, .same _⟩

variable {o o' : Object K} (h : o.Restyled o')

include h

/-- The targets of a restyled object are those from before. -/
theorem targets : o'.targets = o.targets := by
  simp only [Object.targets, Object.references, Object.animatorReferences, h.attached,
    h.content.references]

/-- A restyled object is dead exactly if it was. -/
theorem isDead : Reduction.isDead o' = Reduction.isDead o := by
  obtain ⟨attached, content⟩ := o
  obtain ⟨attached', content'⟩ := o'
  cases h.content with
  | containerShape cs ht => cases cs <;> rfl
  | _ => rfl

/-- What is restyled remains in the sense of a reduction. -/
theorem remains : o.Remains o' where
  attached := h.attached
  isDrawn := h.content.isDrawn
  undrawn hdrawn := by
    obtain ⟨attached, content⟩ := o
    obtain ⟨attached', content'⟩ := o'
    obtain rfl : attached' = attached := h.attached
    obtain rfl : content' = content := h.content.eq_of_undrawn hdrawn
    rfl
  lean := h.content.lean

end Object.Restyled

end Diorama
