/-
  What becomes of one object in a copy.

  The copy of an object is the object itself with four things changed: references are led to copies,
  each in its slot; a property with a default value is unset if defaults are dropped and it has that
  value; and the texts for people are gone if they describe no single object any more.  Nothing else
  is touched.

  That is said here once more without computing anything.  `SettingCopy` is what happens to one
  property, `Content.CopyOf` lists the kinds of content one by one, each with its properties and
  their defaults, and `Object.CopyOf` adds what is attached.  An object of a kind that the library
  does not know has no copy.

  `copyOf_copyObject` says that the copies which are made are copies in that sense.
-/
import Diorama.Merge.Copy
import Diorama.Proofs.Outcome
import Diorama.Proofs.Renaming

namespace Diorama

/-! ## Properties -/

/-- What becomes of a property with a default value.  It is unset afterwards exactly if it was
unset, or if defaults are dropped and it had its default value; and where it is set, it is as it
was. -/
structure SettingCopy {α : Type} [BEq α] (drop : Bool) (default : α) (v w : Option α) : Prop where
  unset_iff : w = none ↔ v = none ∨ drop = true ∧ ∃ x, v = some x ∧ (x == default) = true
  eq_of_set : ∀ x, w = some x → v = some x

/-- A property is copied by dropping its default value where defaults are dropped. -/
theorem SettingCopy.of {α : Type} [BEq α] (drop : Bool) (default : α) (v : Option α) :
    SettingCopy drop default v (bif drop then dropDefault default v else v) := by
  cases drop with
  | false => exact ⟨by simp, fun x hx => hx⟩
  | true =>
    cases v with
    | none => exact ⟨by simp [dropDefault], fun x hx => hx⟩
    | some y =>
      by_cases hy : (y == default) = true
      · exact ⟨by simp [dropDefault, hy], fun x hx => by simp [dropDefault, hy] at hx⟩
      · exact ⟨by simp [dropDefault, hy], fun x hx => by simpa [dropDefault, hy] using hx⟩

variable {K : Type} [Scalar K]

/-! ## Parts -/

/-- The copy of a transform. -/
structure ShapeTransform.CopyOf (drop : Bool) (t t' : ShapeTransform K) : Prop where
  centerPoint : SettingCopy drop ⟨0, 0⟩ t.centerPoint t'.centerPoint
  offset : SettingCopy drop ⟨0, 0⟩ t.offset t'.offset
  scale : SettingCopy drop ⟨1, 1⟩ t.scale t'.scale
  rotation : SettingCopy drop 0 t.rotation t'.rotation
  matrix : SettingCopy drop .identity t.matrix t'.matrix

/-- The copy of the settings of a visual. -/
structure Visual.CopyOf (drop : Bool) (f : ObjectId → ObjectId) (v v' : Visual K) : Prop where
  centerPoint : SettingCopy drop ⟨0, 0, 0⟩ v.centerPoint v'.centerPoint
  offset : SettingCopy drop ⟨0, 0, 0⟩ v.offset v'.offset
  scale : SettingCopy drop ⟨1, 1, 1⟩ v.scale v'.scale
  rotation : SettingCopy drop 0 v.rotation v'.rotation
  matrix : SettingCopy drop .identity v.matrix v'.matrix
  size : SettingCopy drop ⟨0, 0⟩ v.size v'.size
  opacity : SettingCopy drop 1 v.opacity v'.opacity
  isVisible : SettingCopy drop true v.isVisible v'.isVisible
  clip : v'.clip = v.clip.map f

/-- The copy of a stroke. -/
structure Stroke.CopyOf (drop : Bool) (s s' : Stroke K) : Prop where
  thickness : SettingCopy drop 1 s.thickness s'.thickness
  miterLimit : SettingCopy drop 1 s.miterLimit s'.miterLimit
  startCap : SettingCopy drop .flat s.startCap s'.startCap
  endCap : SettingCopy drop .flat s.endCap s'.endCap
  dashCap : SettingCopy drop .flat s.dashCap s'.dashCap
  lineJoin : SettingCopy drop .miter s.lineJoin s'.lineJoin
  dashOffset : SettingCopy drop 0 s.dashOffset s'.dashOffset
  dashArray : s'.dashArray = s.dashArray
  isNonScaling : SettingCopy drop false s.isNonScaling s'.isNonScaling

/-- The copy of a sprite. -/
structure Sprite.CopyOf (drop : Bool) (f : ObjectId → ObjectId) (a a' : Sprite K) : Prop where
  transform : a.transform.CopyOf drop a'.transform
  geometry : a'.geometry = a.geometry.map f
  fillBrush : a'.fillBrush = a.fillBrush.map f
  strokeBrush : a'.strokeBrush = a.strokeBrush.map f
  stroke : a.stroke.CopyOf drop a'.stroke

/-- The copy of a trim. -/
structure Trim.CopyOf (drop : Bool) (t t' : Trim K) : Prop where
  start : SettingCopy drop 0 t.start t'.start
  stop : SettingCopy drop 1 t.stop t'.stop
  offset : SettingCopy drop 0 t.offset t'.offset

omit [Scalar K] in
/-- The copy of a key frame: a path leads to its copy, and any other value is as it was. -/
structure KeyFrame.CopyOf (f : ObjectId → ObjectId) (k k' : KeyFrame K) : Prop where
  progress : k'.progress = k.progress
  path : ∀ p, k.value = .path p → k'.value = .path (f p)
  value : (∀ p, k.value ≠ .path p) → k'.value = k.value
  easing : k'.easing = k.easing.map f

/-! ## Contents and objects -/

/-- The copy of a content, kind by kind. -/
inductive Content.CopyOf (drop : Bool) (f : ObjectId → ObjectId) : Content K → Content K → Prop
  | containerVisual {v v' : Visual K} (cs : List ObjectId) : v.CopyOf drop f v' →
      CopyOf drop f (.containerVisual v cs) (.containerVisual v' (cs.map f))
  | shapeVisual {v v' : Visual K} (cs : List ObjectId) : v.CopyOf drop f v' →
      CopyOf drop f (.shapeVisual v cs) (.shapeVisual v' (cs.map f))
  | containerShape {t t' : ShapeTransform K} (cs : List ObjectId) : t.CopyOf drop t' →
      CopyOf drop f (.containerShape t cs) (.containerShape t' (cs.map f))
  | spriteShape {a a' : Sprite K} : a.CopyOf drop f a' →
      CopyOf drop f (.spriteShape a) (.spriteShape a')
  | ellipseGeometry {t t' : Trim K} {center center' radius radius' : Option (Vec2 K)} :
      t.CopyOf drop t' → SettingCopy drop ⟨0, 0⟩ center center' →
      SettingCopy drop ⟨0, 0⟩ radius radius' →
      CopyOf drop f (.ellipseGeometry t center radius) (.ellipseGeometry t' center' radius')
  | rectangleGeometry {t t' : Trim K} {offset offset' size size' : Option (Vec2 K)} :
      t.CopyOf drop t' → SettingCopy drop ⟨0, 0⟩ offset offset' →
      SettingCopy drop ⟨0, 0⟩ size size' →
      CopyOf drop f (.rectangleGeometry t offset size) (.rectangleGeometry t' offset' size')
  | roundedRectangleGeometry {t t' : Trim K}
      {offset offset' size size' corner corner' : Option (Vec2 K)} :
      t.CopyOf drop t' → SettingCopy drop ⟨0, 0⟩ offset offset' →
      SettingCopy drop ⟨0, 0⟩ size size' → SettingCopy drop ⟨0, 0⟩ corner corner' →
      CopyOf drop f (.roundedRectangleGeometry t offset size corner)
        (.roundedRectangleGeometry t' offset' size' corner')
  | pathGeometry {t t' : Trim K} (p : Option ObjectId) : t.CopyOf drop t' →
      CopyOf drop f (.pathGeometry t p) (.pathGeometry t' (p.map f))
  | path (source : Option ObjectId) : CopyOf drop f (.path source) (.path (source.map f))
  | figures {mode mode' : Option FillMode} (figures : List (Figure K)) :
      SettingCopy drop .alternate mode mode' →
      CopyOf drop f (.geometry (.figures mode figures)) (.geometry (.figures mode' figures))
  | group {mode mode' : Option FillMode} (geometries : List ObjectId) :
      SettingCopy drop .alternate mode mode' →
      CopyOf drop f (.geometry (.group mode geometries))
        (.geometry (.group mode' (geometries.map f)))
  | transformed (source : ObjectId) (m : Matrix3x2 K) :
      CopyOf drop f (.geometry (.transformed source m)) (.geometry (.transformed (f source) m))
  | colorBrush (color : Option Color) : CopyOf drop f (.colorBrush color) (.colorBrush color)
  | insetClip {left left' top top' right right' bottom bottom' : Option K} :
      SettingCopy drop 0 left left' → SettingCopy drop 0 top top' →
      SettingCopy drop 0 right right' → SettingCopy drop 0 bottom bottom' →
      CopyOf drop f (.insetClip left top right bottom) (.insetClip left' top' right' bottom')
  | geometricClip (g : Option ObjectId) :
      CopyOf drop f (.geometricClip g) (.geometricClip (g.map f))
  | linearEasing : CopyOf drop f .linearEasing .linearEasing
  | cubicBezierEasing (control1 control2 : Vec2 K) :
      CopyOf drop f (.cubicBezierEasing control1 control2) (.cubicBezierEasing control1 control2)
  | stepEasing {steps steps' : Option Int32} {initial initial' final final' : Option Bool} :
      SettingCopy drop 1 steps steps' → SettingCopy drop false initial initial' →
      SettingCopy drop false final final' →
      CopyOf drop f (.stepEasing steps initial final) (.stepEasing steps' initial' final')
  | keyFrameAnimation (kind : ValueKind) (duration : Int64) (target : Option String)
      {frames frames' : List (KeyFrame K)} : List.Forall₂ (KeyFrame.CopyOf f) frames frames' →
      CopyOf drop f (.keyFrameAnimation ⟨kind, duration, target, frames⟩)
        (.keyFrameAnimation ⟨kind, duration, target, frames'⟩)
  | expressionAnimation (expression : String) (target : Option String) (ps : List Parameter) :
      CopyOf drop f (.expressionAnimation ⟨expression, target, ps⟩)
        (.expressionAnimation ⟨expression, target, ps.map fun p => ⟨p.name, f p.object⟩⟩)
  | animationController (paused : Bool) :
      CopyOf drop f (.animationController paused) (.animationController paused)
  | propertySet : CopyOf drop f .propertySet .propertySet

/-- The copy of an object; `anonymous` says that the texts for people are dropped. -/
structure Object.CopyOf (drop : Bool) (f : ObjectId → ObjectId) (anonymous : Prop)
    (o o' : Object K) : Prop where
  content : o.content.CopyOf drop f o'.content
  animators : o'.attached.animators =
    o.attached.animators.map fun a => ⟨a.target, f a.animation, a.controller.map f⟩
  properties : o'.attached.properties = o.attached.properties
  cleared : anonymous → o'.attached.comment = none ∧ o'.attached.shortDescription = none ∧
    o'.attached.longDescription = none
  described : ¬ anonymous → o'.attached.comment = o.attached.comment ∧
    o'.attached.shortDescription = o.attached.shortDescription ∧
    o'.attached.longDescription = o.attached.longDescription

/-! ## The copies that are made

Each part is copied by unsetting defaults or by leaving everything as it is; the cases are the
same. -/

/-- A transform is copied with or without its defaults. -/
theorem ShapeTransform.CopyOf.of (drop : Bool) (t : ShapeTransform K) :
    t.CopyOf drop (bif drop then t.withoutDefaults else t) := by
  cases drop <;> exact ⟨.of _ _ _, .of _ _ _, .of _ _ _, .of _ _ _, .of _ _ _⟩

/-- A visual is copied with or without its defaults, and with renamed ids. -/
theorem Visual.CopyOf.of (drop : Bool) (f : ObjectId → ObjectId) (v : Visual K) :
    v.CopyOf drop f (bif drop then (v.mapIds f).withoutDefaults else v.mapIds f) := by
  cases drop <;>
    exact ⟨.of _ _ _, .of _ _ _, .of _ _ _, .of _ _ _, .of _ _ _, .of _ _ _, .of _ _ _, .of _ _ _,
      rfl⟩

/-- A stroke is copied with or without its defaults. -/
theorem Stroke.CopyOf.of (drop : Bool) (s : Stroke K) :
    s.CopyOf drop (bif drop then s.withoutDefaults else s) := by
  cases drop <;>
    exact ⟨.of _ _ _, .of _ _ _, .of _ _ _, .of _ _ _, .of _ _ _, .of _ _ _, .of _ _ _, rfl,
      .of _ _ _⟩

/-- A trim is copied with or without its defaults. -/
theorem Trim.CopyOf.of (drop : Bool) (t : Trim K) :
    t.CopyOf drop (bif drop then t.withoutDefaults else t) := by
  cases drop <;> exact ⟨.of _ _ _, .of _ _ _, .of _ _ _⟩

omit [Scalar K] in
theorem KeyFrame.copyOf_mapIds (f : ObjectId → ObjectId) (k : KeyFrame K) :
    k.CopyOf f (k.mapIds f) := by
  refine ⟨rfl, ?_, ?_, rfl⟩
  · intro p hp
    simp [KeyFrame.mapIds, hp, KeyFrameValue.mapIds]
  · intro hp
    cases hv : k.value with
    | path p => exact absurd hv (hp p)
    | _ => simp [KeyFrame.mapIds, hv, KeyFrameValue.mapIds]

/-- A content is copied by renaming, and by unsetting what has its default value. -/
theorem Content.CopyOf.of (drop : Bool) (f : ObjectId → ObjectId) {c : Content K}
    (hknown : ∀ name, c ≠ .external name) :
    c.CopyOf drop f (bif drop then (c.mapIds f).withoutDefaults else c.mapIds f) := by
  have hframes : ∀ a : KeyFrameAnimation K,
      List.Forall₂ (KeyFrame.CopyOf f) a.frames (a.mapIds f).frames :=
    fun a => forall₂_map_right fun k _ => k.copyOf_mapIds f
  cases c with
  | containerVisual v cs => cases drop <;> exact .containerVisual cs (.of _ f v)
  | shapeVisual v cs => cases drop <;> exact .shapeVisual cs (.of _ f v)
  | containerShape t cs => cases drop <;> exact .containerShape cs (.of _ t)
  | spriteShape a =>
    cases drop <;> exact .spriteShape ⟨.of _ a.transform, rfl, rfl, rfl, .of _ a.stroke⟩
  | ellipseGeometry t center radius =>
    cases drop <;> exact .ellipseGeometry (.of _ t) (.of _ _ center) (.of _ _ radius)
  | rectangleGeometry t offset size =>
    cases drop <;> exact .rectangleGeometry (.of _ t) (.of _ _ offset) (.of _ _ size)
  | roundedRectangleGeometry t offset size corner =>
    cases drop <;>
      exact .roundedRectangleGeometry (.of _ t) (.of _ _ offset) (.of _ _ size) (.of _ _ corner)
  | pathGeometry t p => cases drop <;> exact .pathGeometry p (.of _ t)
  | path source => cases drop <;> exact .path source
  | geometry outline =>
    cases outline with
    | figures mode figures => cases drop <;> exact .figures figures (.of _ _ mode)
    | group mode geometries => cases drop <;> exact .group geometries (.of _ _ mode)
    | transformed source m => cases drop <;> exact .transformed source m
  | colorBrush color => cases drop <;> exact .colorBrush color
  | insetClip left top right bottom =>
    cases drop <;>
      exact .insetClip (.of _ _ left) (.of _ _ top) (.of _ _ right) (.of _ _ bottom)
  | geometricClip g => cases drop <;> exact .geometricClip g
  | linearEasing => cases drop <;> exact .linearEasing
  | cubicBezierEasing control1 control2 =>
    cases drop <;> exact .cubicBezierEasing control1 control2
  | stepEasing steps initial final =>
    cases drop <;> exact .stepEasing (.of _ _ steps) (.of _ _ initial) (.of _ _ final)
  | keyFrameAnimation a =>
    cases drop <;> exact .keyFrameAnimation a.kind a.duration a.target (hframes a)
  | expressionAnimation a =>
    cases drop <;> exact .expressionAnimation a.expression a.target a.parameters
  | animationController paused => cases drop <;> exact .animationController paused
  | propertySet => cases drop <;> exact .propertySet
  | external name => exact absurd rfl (hknown name)

/-- **The copies that are made are copies.** -/
theorem Merge.copyOf_copyObject (c : Classes) (settings : OptimizerSettings)
    (f : ObjectId → ObjectId) (r : Nat) {o : Object K}
    (hknown : ∀ name, o.content ≠ .external name) :
    o.CopyOf (!settings.keepDefaults) f (settings.ignoreComments = true ∧ 1 < c.sizeOf r)
      (copyObject c settings f r o) := by
  have hcontent := Content.CopyOf.of (!settings.keepDefaults) f hknown
  have htext : (settings.ignoreComments && decide (1 < c.sizeOf r)) = true ↔
      settings.ignoreComments = true ∧ 1 < c.sizeOf r := by
    rw [Bool.and_eq_true, decide_eq_true_eq]
  refine ⟨?_, ?_, ?_, ?_, ?_⟩
  · unfold copyObject
    cases hkeep : settings.keepDefaults with
    | true => simpa [hkeep, Object.mapIds] using hcontent
    | false => simpa [hkeep, Object.mapIds] using hcontent
  · simp only [copyObject]
    split <;> rfl
  · simp only [copyObject]
    split <;> rfl
  · intro hanonymous
    simp only [copyObject, htext.mpr hanonymous, if_true]
    exact ⟨rfl, rfl, rfl⟩
  · intro hnamed
    simp only [copyObject, if_neg (mt htext.mp hnamed)]
    exact ⟨rfl, rfl, rfl⟩

/-! ## What a copy refers to -/

/-- Unsetting defaults changes no reference. -/
theorem Content.references_withoutDefaults (c : Content K) :
    c.withoutDefaults.references = c.references := by
  cases c with
  | geometry outline => cases outline <;> rfl
  | _ => rfl

@[simp] theorem Content.kind_withoutDefaults (c : Content K) : c.withoutDefaults.kind = c.kind := by
  cases c <;> rfl

omit [Scalar K] in
/-- Which key frame does not fit has nothing to do with ids. -/
theorem KeyFrameAnimation.mismatch_mapIds (f : ObjectId → ObjectId) (a : KeyFrameAnimation K) :
    ((a.mapIds f).frames.findIdx? fun k => !k.value.fits (a.mapIds f).kind) =
      a.frames.findIdx? fun k => !k.value.fits a.kind := by
  have hfits : ∀ k : KeyFrame K, (k.mapIds f).value.fits a.kind = k.value.fits a.kind := by
    rintro ⟨progress, value, easing⟩
    generalize a.kind = kind
    cases value <;> cases kind <;> rfl
  show ((a.frames.map (·.mapIds f)).findIdx? fun k => !k.value.fits a.kind) = _
  rw [List.findIdx?_map]
  simp only [Function.comp_def, hfits]

namespace Merge

variable (c : Classes) (settings : OptimizerSettings) (f : ObjectId → ObjectId) (r : Nat)
  (o : Object K)

/-- The content of a copy is the content under new ids, perhaps without defaults. -/
theorem copyObject_content : (copyObject c settings f r o).content = o.content.mapIds f ∨
    (copyObject c settings f r o).content = (o.content.mapIds f).withoutDefaults := by
  unfold copyObject
  cases settings.keepDefaults with
  | true => exact Or.inl rfl
  | false => exact Or.inr rfl

/-- The animators of a copy are the animators under new ids. -/
theorem copyObject_animators : (copyObject c settings f r o).attached.animators =
    o.attached.animators.map (·.mapIds f) := by
  simp only [copyObject]
  split <;> rfl

/-- A copy has the references of the content, under new ids and in the same slots. -/
theorem contentReferences_copyObject : (copyObject c settings f r o).content.references =
    o.content.references.map (·.retarget f) := by
  rw [← Content.references_mapIds]
  rcases copyObject_content c settings f r o with h | h
  · rw [h]
  · rw [h, Content.references_withoutDefaults]

/-- A copy has the references of the animators, under new ids and in the same slots. -/
theorem animatorReferences_copyObject : (copyObject c settings f r o).animatorReferences =
    o.animatorReferences.map (·.retarget f) := by
  rw [← Object.animatorReferences_mapIds, Object.animatorReferences, copyObject_animators]
  rfl

/-- **References keep their slots and their order** and lead to copies. -/
theorem references_copyObject :
    (copyObject c settings f r o).references = o.references.map (·.retarget f) := by
  rw [Object.references, Object.references, contentReferences_copyObject,
    animatorReferences_copyObject, List.map_append]

theorem targets_copyObject : (copyObject c settings f r o).targets = o.targets.map f := by
  rw [Object.targets, references_copyObject, Object.targets, List.map_map, List.map_map]
  rfl

/-- The copy of an object is itself copied in the same order. -/
theorem copyOrder_copyObject : (copyObject c settings f r o).copyOrder = o.copyOrder.map f := by
  have hfirst : (copyObject c settings f r o).content.isCopiedFirst = o.content.isCopiedFirst := by
    rcases copyObject_content c settings f r o with h | h
    · rw [h]
      cases o.content <;> rfl
    · rw [h]
      cases o.content <;> rfl
  rw [Object.copyOrder, Object.copyOrder, hfirst]
  split
  · exact targets_copyObject c settings f r o
  · rw [contentReferences_copyObject, animatorReferences_copyObject, ← List.map_append,
      List.map_map, List.map_map]
    rfl

/-- Key frames of a copy fit where they fitted before. -/
theorem checkFrames_copyObject {id y : ObjectId} (h : Index.checkFrames id o = .ok ()) :
    Index.checkFrames y (copyObject c settings f r o) = .ok () := by
  have hcontent := copyObject_content c settings f r o
  unfold Index.checkFrames at h ⊢
  cases hc : o.content with
  | keyFrameAnimation a =>
    have hsame : (copyObject c settings f r o).content = .keyFrameAnimation (a.mapIds f) := by
      rw [hc] at hcontent
      rcases hcontent with hcontent | hcontent
      · exact hcontent
      · exact hcontent
    simp only [hc] at h
    simp only [hsame, KeyFrameAnimation.mismatch_mapIds]
    cases hfirst : a.frames.findIdx? fun k => !k.value.fits a.kind with
    | none => rfl
    | some i =>
      simp only [hfirst] at h
      cases h
  | _ =>
    rw [hc] at hcontent
    rcases hcontent with hcontent | hcontent
    · simp only [hcontent, Content.mapIds]
    · simp only [hcontent, Content.mapIds, Content.withoutDefaults]

end Merge

end Diorama
