/-
  An optimized scene spells out no default value.

  `Content.Sparse` says of each kind of content which of its properties have a default value, what
  that value is, and that none of them is set to it.  Whether a value is the default is decided by
  `==`, which for scalars need not be equality.

  Two parts of the optimizer set properties.  The copy unsets those that have their default value,
  one by one, so a copy is sparse.  The reduction computes new matrices, by folding transforms and
  by pushing the matrix of a container down to its shapes, and it leaves a matrix unset that comes
  out as the identity.  So whatever it does to an object that was sparse, the object stays sparse:
  this is `Object.Remains`, since to be sparse is to be left alone by another round of unsetting
  (`isLean_iff`).
-/
import Mathlib
import Diorama.Proofs.SecondRun

namespace Diorama

/-! ## Properties and their defaults -/

/-- If the property is set, it is not set to its default. -/
def Departs {α : Type} [BEq α] (default : α) (v : Option α) : Prop :=
  ∀ x, v = some x → (x == default) = false

/-- Exactly such properties are left alone when defaults are unset. -/
theorem dropDefault_eq_self_iff {α : Type} [BEq α] {default : α} {v : Option α} :
    dropDefault default v = v ↔ Departs default v := by
  cases v with
  | none => simp [dropDefault, Departs]
  | some x => cases hx : x == default <;> simp [dropDefault, Departs, hx]

variable {K : Type} [Scalar K]

/-- No setting of the transform is set to what it would be anyway. -/
@[mk_iff] structure ShapeTransform.Sparse (t : ShapeTransform K) : Prop where
  centerPoint : Departs ⟨0, 0⟩ t.centerPoint
  offset : Departs ⟨0, 0⟩ t.offset
  scale : Departs ⟨1, 1⟩ t.scale
  rotation : Departs 0 t.rotation
  matrix : Departs .identity t.matrix

/-- A clip has no default. -/
@[mk_iff] structure Visual.Sparse (v : Visual K) : Prop where
  centerPoint : Departs ⟨0, 0, 0⟩ v.centerPoint
  offset : Departs ⟨0, 0, 0⟩ v.offset
  scale : Departs ⟨1, 1, 1⟩ v.scale
  rotation : Departs 0 v.rotation
  matrix : Departs .identity v.matrix
  size : Departs ⟨0, 0⟩ v.size
  opacity : Departs 1 v.opacity
  isVisible : Departs true v.isVisible

/-- No setting of the stroke is set to what it would be anyway. -/
@[mk_iff] structure Stroke.Sparse (s : Stroke K) : Prop where
  thickness : Departs 1 s.thickness
  miterLimit : Departs 1 s.miterLimit
  startCap : Departs .flat s.startCap
  endCap : Departs .flat s.endCap
  dashCap : Departs .flat s.dashCap
  lineJoin : Departs .miter s.lineJoin
  dashOffset : Departs 0 s.dashOffset
  isNonScaling : Departs false s.isNonScaling

/-- No bound of the trim is set to what it would be anyway. -/
@[mk_iff] structure Trim.Sparse (t : Trim K) : Prop where
  start : Departs 0 t.start
  stop : Departs 1 t.stop
  offset : Departs 0 t.offset

/-- The fill mode is the only property of an outline that has a default. -/
def Outline.Sparse : Outline K → Prop
  | .figures fillMode _ => Departs .alternate fillMode
  | .group fillMode _ => Departs .alternate fillMode
  | .transformed _ _ => True

/-- No property is set to its default value. -/
def Content.Sparse : Content K → Prop
  | .containerVisual visual _ => visual.Sparse
  | .shapeVisual visual _ => visual.Sparse
  | .containerShape transform _ => transform.Sparse
  | .spriteShape sprite => sprite.transform.Sparse ∧ sprite.stroke.Sparse
  | .ellipseGeometry trim center radius =>
    trim.Sparse ∧ Departs ⟨0, 0⟩ center ∧ Departs ⟨0, 0⟩ radius
  | .rectangleGeometry trim offset size =>
    trim.Sparse ∧ Departs ⟨0, 0⟩ offset ∧ Departs ⟨0, 0⟩ size
  | .roundedRectangleGeometry trim offset size cornerRadius =>
    trim.Sparse ∧ Departs ⟨0, 0⟩ offset ∧ Departs ⟨0, 0⟩ size ∧ Departs ⟨0, 0⟩ cornerRadius
  | .pathGeometry trim _ => trim.Sparse
  | .geometry outline => outline.Sparse
  | .insetClip left top right bottom =>
    Departs 0 left ∧ Departs 0 top ∧ Departs 0 right ∧ Departs 0 bottom
  | .stepEasing steps initialSingle finalSingle =>
    Departs 1 steps ∧ Departs false initialSingle ∧ Departs false finalSingle
  -- what is left has no property with a default
  | .path _ => True
  | .colorBrush _ => True
  | .geometricClip _ => True
  | .linearEasing => True
  | .cubicBezierEasing _ _ => True
  | .keyFrameAnimation _ => True
  | .expressionAnimation _ => True
  | .animationController _ => True
  | .propertySet => True
  | .external _ => True

/-! ## Unsetting changes nothing -/

/-- Unsetting defaults leaves a transform alone exactly if none is set. -/
theorem ShapeTransform.withoutDefaults_eq_self_iff {t : ShapeTransform K} :
    t.withoutDefaults = t ↔ t.Sparse := by
  obtain ⟨centerPoint, offset, scale, rotation, matrix⟩ := t
  simp only [withoutDefaults, mk.injEq, dropDefault_eq_self_iff, sparse_iff]
  rfl

/-- Unsetting defaults leaves a visual alone exactly if none is set. -/
theorem Visual.withoutDefaults_eq_self_iff {v : Visual K} : v.withoutDefaults = v ↔ v.Sparse := by
  obtain ⟨centerPoint, offset, scale, rotation, matrix, size, opacity, isVisible, clip⟩ := v
  simp only [withoutDefaults, mk.injEq, dropDefault_eq_self_iff, sparse_iff, and_true]
  rfl

theorem Stroke.withoutDefaults_eq_self_iff {s : Stroke K} : s.withoutDefaults = s ↔ s.Sparse := by
  obtain ⟨thickness, miterLimit, startCap, endCap, dashCap, lineJoin, dashOffset, dashArray,
    isNonScaling⟩ := s
  simp only [withoutDefaults, mk.injEq, dropDefault_eq_self_iff, sparse_iff, true_and]

theorem Trim.withoutDefaults_eq_self_iff {t : Trim K} : t.withoutDefaults = t ↔ t.Sparse := by
  obtain ⟨start, stop, offset⟩ := t
  simp only [withoutDefaults, mk.injEq, dropDefault_eq_self_iff, sparse_iff]

/-- A sprite has defaults in its transform and in its stroke. -/
theorem Sprite.withoutDefaults_eq_self_iff {a : Sprite K} :
    a.withoutDefaults = a ↔ a.transform.Sparse ∧ a.stroke.Sparse := by
  obtain ⟨transform, geometry, fillBrush, strokeBrush, stroke⟩ := a
  simp only [withoutDefaults, mk.injEq, ShapeTransform.withoutDefaults_eq_self_iff,
    Stroke.withoutDefaults_eq_self_iff, true_and]

omit [Scalar K] in
/-- An outline is left alone exactly if its fill mode is not the default one. -/
theorem Outline.withoutDefaults_eq_self_iff {g : Outline K} : g.withoutDefaults = g ↔ g.Sparse := by
  cases g <;> simp [withoutDefaults, Sparse, dropDefault_eq_self_iff]

/-- **To be sparse is to be left alone** by unsetting defaults. -/
theorem Content.isLean_iff {c : Content K} : c.IsLean ↔ c.Sparse := by
  unfold IsLean
  cases c <;> simp only [withoutDefaults, Sparse, containerVisual.injEq, shapeVisual.injEq,
    containerShape.injEq, spriteShape.injEq, ellipseGeometry.injEq, rectangleGeometry.injEq,
    roundedRectangleGeometry.injEq, pathGeometry.injEq, geometry.injEq, insetClip.injEq,
    stepEasing.injEq, Visual.withoutDefaults_eq_self_iff,
    ShapeTransform.withoutDefaults_eq_self_iff, Sprite.withoutDefaults_eq_self_iff,
    Trim.withoutDefaults_eq_self_iff,
    Outline.withoutDefaults_eq_self_iff, dropDefault_eq_self_iff, Vec2.zero, and_true]

/-! ## The optimizer -/

namespace Scene

variable {s : Scene K} {settings : OptimizerSettings} {out : Optimized K}

/-- **No default value survives a run.**  Unless defaults are kept, no object in the arena of the
result sets a property to its default value, be it reachable or not, and whether or not the tree was
reduced. -/
theorem optimize_sparse (hdefaults : settings.keepDefaults = false)
    (hrun : s.optimize settings = .ok out) : ∀ o ∈ out.scene.objects, o.content.Sparse := by
  intro o ho
  obtain ⟨ix, copied, hout⟩ := optimize_eq_ok_iff.mp hrun
  obtain ⟨order, rank, horder, hcopied, hleft⟩ := hout.underway
  obtain ⟨g, hedited, -⟩ := hleft.edited
  have hsize : out.scene.size ≤ UInt32.size := hedited.size ▸ hcopied.arena_le_words
  obtain ⟨y, hy⟩ := (Merge.mem_objects_iff hsize).mp (Array.mem_toList_iff.mpr ho)
  exact Content.isLean_iff.mp (Merge.isLean_left hcopied horder hleft hdefaults hy)

/-- A sprite that is turned upside down twice, with a few default values spelled out. -/
def mirror : Scene (BitVec 32) where
  objects := #[
    { content := .shapeVisual { opacity := some 1, size := some ⟨8, 8⟩ } [⟨1⟩] },
    { content :=
        .containerShape { scale := some ⟨1, 1⟩, matrix := some ⟨-1, 0, 0, -1, 0, 0⟩ } [⟨2⟩] },
    { content := .spriteShape {
        transform := { matrix := some ⟨-1, 0, 0, -1, 0, 0⟩ }
        geometry := some ⟨3⟩
        stroke := { thickness := some 1, startCap := some .round } } },
    { content := .ellipseGeometry { start := some 0 } (some ⟨0, 0⟩) (some ⟨5, 5⟩) }]

/-- The objects of the mirror as a walk from the root meets them. -/
def mirrorIndex : Index where
  nodes := [⟨⟨0⟩, []⟩, ⟨⟨1⟩, [⟨0, .child 0⟩]⟩, ⟨⟨2⟩, [⟨1, .child 0⟩]⟩, ⟨⟨3⟩, [⟨2, .geometry⟩]⟩]
  postOrder := [3, 2, 1, 0]

def mirrorCopy : Scene (BitVec 32) where
  root := ⟨3⟩
  objects := #[
    { content := .ellipseGeometry {} none (some ⟨5, 5⟩) },
    { content := .spriteShape {
        transform := { matrix := some ⟨-1, 0, 0, -1, 0, 0⟩ }
        geometry := some ⟨0⟩
        stroke := { startCap := some .round } } },
    { content := .containerShape { matrix := some ⟨-1, 0, 0, -1, 0, 0⟩ } [⟨1⟩] },
    { content := .shapeVisual { size := some ⟨8, 8⟩ } [⟨2⟩] }]

/-- The two turns cancel out, and the sprite is left without a matrix. -/
def mirrorOnce : Optimized (BitVec 32) where
  scene := {
    root := ⟨3⟩
    objects := #[
      { content := .ellipseGeometry {} none (some ⟨5, 5⟩) },
      { content := .spriteShape { geometry := some ⟨0⟩, stroke := { startCap := some .round } } },
      { content := .containerShape {} [⟨1⟩] },
      { content := .shapeVisual { size := some ⟨8, 8⟩ } [⟨1⟩] }] }
  report := {
    inputObjects := 4
    canonicalObjects := 4
    merged := []
    reduction := ⟨0, 0, 0, 1, 1⟩
    outputObjects := 3 }

/-- Optimised, the mirror has none of the default values that were spelled out. -/
theorem mirror_sparse :
    mirror.optimize {} = .ok mirrorOnce ∧ ∀ o ∈ mirrorOnce.scene.objects, o.content.Sparse := by
  have hix : Index.build mirror = .ok mirrorIndex := by cbv
  have hcopy : Merge.copy mirror mirrorIndex (Classes.ofIndex mirror mirrorIndex {}) {} =
      .ok mirrorCopy := by cbv
  have hreduce : Reduction.reduce mirrorCopy = .ok ⟨0, 0, 0, 1, 1⟩ mirrorOnce.scene := by
    have hdrop : Reduction.removeDead mirrorCopy = .ok {} mirrorCopy := by cbv
    have hfold : Reduction.foldTransforms mirrorCopy = .ok {} mirrorCopy := by cbv
    have hlimit : Reduction.roundLimit mirrorCopy = 1080045576 := rfl
    have hrounds : Reduction.coalesceFor 1080045576 mirrorCopy =
        .ok ⟨0, 0, 0, 1, 1⟩ mirrorOnce.scene := by cbv
    exact Reduction.reduce_of_stages hdrop hfold hlimit hrounds
  have honce : mirror.optimize {} = .ok mirrorOnce := by
    rw [optimize_of_copy hix hcopy (by simp) fun _ => hreduce]
    cbv
  exact ⟨honce, optimize_sparse rfl honce⟩

end Scene
end Diorama
