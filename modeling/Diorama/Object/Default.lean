/-
  Default values.

  A property that is not set has its default value, so setting it to that value says nothing.
  `Content.withoutDefaults` unsets every such property.  The colour of a brush, the clip of a visual
  and the points of an easing have no default and stay.
-/
import Diorama.Object.Content

namespace Diorama

/-- Unsets a property that has its default value. -/
def dropDefault {α : Type} [BEq α] (default : α) : Option α → Option α
  | some v => if v == default then none else some v
  | none => none

section

variable {K : Type} [Scalar K]

def ShapeTransform.withoutDefaults (t : ShapeTransform K) : ShapeTransform K where
  centerPoint := dropDefault .zero t.centerPoint
  offset := dropDefault .zero t.offset
  scale := dropDefault .one t.scale
  rotation := dropDefault 0 t.rotation
  matrix := dropDefault .identity t.matrix

def Visual.withoutDefaults (v : Visual K) : Visual K where
  centerPoint := dropDefault .zero v.centerPoint
  offset := dropDefault .zero v.offset
  scale := dropDefault .one v.scale
  rotation := dropDefault 0 v.rotation
  matrix := dropDefault .identity v.matrix
  size := dropDefault .zero v.size
  opacity := dropDefault 1 v.opacity
  isVisible := dropDefault true v.isVisible
  clip := v.clip

def Stroke.withoutDefaults (s : Stroke K) : Stroke K where
  thickness := dropDefault 1 s.thickness
  miterLimit := dropDefault 1 s.miterLimit
  startCap := dropDefault .flat s.startCap
  endCap := dropDefault .flat s.endCap
  dashCap := dropDefault .flat s.dashCap
  lineJoin := dropDefault .miter s.lineJoin
  dashOffset := dropDefault 0 s.dashOffset
  dashArray := s.dashArray
  isNonScaling := dropDefault false s.isNonScaling

def Sprite.withoutDefaults (s : Sprite K) : Sprite K :=
  { s with transform := s.transform.withoutDefaults, stroke := s.stroke.withoutDefaults }

def Trim.withoutDefaults (t : Trim K) : Trim K where
  start := dropDefault 0 t.start
  stop := dropDefault 1 t.stop
  offset := dropDefault 0 t.offset

def Outline.withoutDefaults : Outline K → Outline K
  | .figures fillMode fs => .figures (dropDefault .alternate fillMode) fs
  | .group fillMode geometries => .group (dropDefault .alternate fillMode) geometries
  | .transformed source matrix => .transformed source matrix

/-- The same content with every property unset that has its default value. -/
def Content.withoutDefaults : Content K → Content K
  | .containerVisual visual children => .containerVisual visual.withoutDefaults children
  | .shapeVisual visual shapes => .shapeVisual visual.withoutDefaults shapes
  | .containerShape transform shapes => .containerShape transform.withoutDefaults shapes
  | .spriteShape sprite => .spriteShape sprite.withoutDefaults
  | .ellipseGeometry trim center radius =>
    .ellipseGeometry trim.withoutDefaults (dropDefault .zero center) (dropDefault .zero radius)
  | .rectangleGeometry trim offset size =>
    .rectangleGeometry trim.withoutDefaults (dropDefault .zero offset) (dropDefault .zero size)
  | .roundedRectangleGeometry trim offset size cornerRadius =>
    .roundedRectangleGeometry trim.withoutDefaults (dropDefault .zero offset)
      (dropDefault .zero size) (dropDefault .zero cornerRadius)
  | .pathGeometry trim p => .pathGeometry trim.withoutDefaults p
  | .geometry outline => .geometry outline.withoutDefaults
  | .insetClip left top right bottom =>
    .insetClip (dropDefault 0 left) (dropDefault 0 top) (dropDefault 0 right)
      (dropDefault 0 bottom)
  | .stepEasing steps initialSingle finalSingle =>
    .stepEasing (dropDefault 1 steps) (dropDefault false initialSingle)
      (dropDefault false finalSingle)
  | content => content

end
end Diorama
