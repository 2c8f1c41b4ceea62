/-
  What objects are.

  Visuals and shapes form the tree that is drawn: visuals hold visuals or shapes, shapes hold
  shapes, and a sprite is the leaf that draws a geometry with its brushes.  Geometries, brushes,
  clips, easings and animations hang off them and may be shared.

  A property that is not set has its default value (`Object/Default`).  Everything is over a type
  `K` of scalars; `mapScalars` changes it and `mapIds` changes the objects that are referred to, and
  both keep everything else.
-/
import Diorama.Matrix
import Diorama.Object.Attachments
import Diorama.Object.Kind

namespace Diorama

/-! ## Choices -/

/-- How the ends of strokes and dashes look. -/
inductive StrokeCap where
  | flat
  | square
  | round
  | triangle
deriving DecidableEq

/-- How the corners of a stroke look. -/
inductive LineJoin where
  | miter
  | bevel
  | round
  | miterOrBevel
deriving DecidableEq

/-- Which points overlapping figures enclose. -/
inductive FillMode where
  | alternate
  | winding
deriving DecidableEq

/-- The type of value that an animation has. -/
inductive ValueKind where
  | scalar
  | vector2
  | vector3
  | vector4
  | color
  | path
  | boolean
deriving DecidableEq

namespace StrokeCap

def all : List StrokeCap := [.flat, .square, .round, .triangle]

def name : StrokeCap → String
  | .flat => "Flat"
  | .square => "Square"
  | .round => "Round"
  | .triangle => "Triangle"

end StrokeCap

namespace LineJoin

def all : List LineJoin := [.miter, .bevel, .round, .miterOrBevel]

def name : LineJoin → String
  | .miter => "Miter"
  | .bevel => "Bevel"
  | .round => "Round"
  | .miterOrBevel => "MiterOrBevel"

end LineJoin

namespace FillMode

def all : List FillMode := [.alternate, .winding]

def name : FillMode → String
  | .alternate => "Alternate"
  | .winding => "Winding"

end FillMode

namespace ValueKind

def all : List ValueKind := [.scalar, .vector2, .vector3, .vector4, .color, .path, .boolean]

def name : ValueKind → String
  | .scalar => "Scalar"
  | .vector2 => "Vector2"
  | .vector3 => "Vector3"
  | .vector4 => "Vector4"
  | .color => "Color"
  | .path => "Path"
  | .boolean => "Boolean"

end ValueKind

/-! ## Parts -/

/-- Where a shape is: a centre to scale and rotate about, an offset, and a matrix applied last. -/
structure ShapeTransform (K : Type) where
  centerPoint : Option (Vec2 K) := none
  offset : Option (Vec2 K) := none
  scale : Option (Vec2 K) := none
  rotation : Option K := none
  matrix : Option (Matrix3x2 K) := none
deriving DecidableEq

/-- Where a visual is, and how it shows what it holds. -/
structure Visual (K : Type) where
  centerPoint : Option (Vec3 K) := none
  offset : Option (Vec3 K) := none
  scale : Option (Vec3 K) := none
  rotation : Option K := none
  matrix : Option (Matrix4x4 K) := none
  size : Option (Vec2 K) := none
  opacity : Option K := none
  isVisible : Option Bool := none
  clip : Option ObjectId := none
deriving DecidableEq

/-- How an outline is drawn. -/
structure Stroke (K : Type) where
  thickness : Option K := none
  miterLimit : Option K := none
  startCap : Option StrokeCap := none
  endCap : Option StrokeCap := none
  dashCap : Option StrokeCap := none
  lineJoin : Option LineJoin := none
  dashOffset : Option K := none
  dashArray : List K := []
  isNonScaling : Option Bool := none
deriving DecidableEq

/-- A leaf of the picture. -/
structure Sprite (K : Type) where
  transform : ShapeTransform K := {}
  geometry : Option ObjectId := none
  fillBrush : Option ObjectId := none
  strokeBrush : Option ObjectId := none
  stroke : Stroke K := {}
deriving DecidableEq

/-- Which part of an outline is drawn. -/
structure Trim (K : Type) where
  start : Option K := none
  stop : Option K := none
  offset : Option K := none
deriving DecidableEq

/-- A piece of a figure, from where the last one ended. -/
inductive Segment (K : Type) where
  | line (dest : Vec2 K)
  | cubic (control1 control2 dest : Vec2 K)
deriving BEq, DecidableEq

/-- A connected outline. -/
structure Figure (K : Type) where
  start : Vec2 K
  segments : List (Segment K) := []
  closed : Bool := false
deriving BEq, DecidableEq

/-- What a geometry is composed of. -/
inductive Outline (K : Type) where
  | figures (fillMode : Option FillMode) (figures : List (Figure K))
  | group (fillMode : Option FillMode) (geometries : List ObjectId)
  | transformed (source : ObjectId) (matrix : Matrix3x2 K)
deriving DecidableEq

/-- The value of a key frame. -/
inductive KeyFrameValue (K : Type) where
  | scalar (x : K)
  | vector2 (v : Vec2 K)
  | vector3 (v : Vec3 K)
  | vector4 (v : Vec4 K)
  | color (c : Color)
  | boolean (b : Bool)
  | path (id : ObjectId)
  | expression (text : String)
deriving DecidableEq

/-- A value that an animation has at a point of its progress, and how it is approached. -/
structure KeyFrame (K : Type) where
  progress : K
  value : KeyFrameValue K
  easing : Option ObjectId := none
deriving DecidableEq

/-- A value that changes over time; the duration is in ticks of 100 ns. -/
structure KeyFrameAnimation (K : Type) where
  kind : ValueKind := .scalar
  duration : Int64 := 0
  target : Option String := none
  frames : List (KeyFrame K) := []
deriving DecidableEq

/-- An object that an expression reads under a name. -/
structure Parameter where
  name : String
  object : ObjectId
deriving DecidableEq

/-- A value computed from other objects. -/
structure ExpressionAnimation where
  expression : String := ""
  target : Option String := none
  parameters : List Parameter := []
deriving DecidableEq

/-! ## Objects -/

/-- What an object is. -/
inductive Content (K : Type) where
  | containerVisual (visual : Visual K) (children : List ObjectId)
  | shapeVisual (visual : Visual K) (shapes : List ObjectId)
  | containerShape (transform : ShapeTransform K) (shapes : List ObjectId)
  | spriteShape (sprite : Sprite K)
  | ellipseGeometry (trim : Trim K) (center radius : Option (Vec2 K))
  | rectangleGeometry (trim : Trim K) (offset size : Option (Vec2 K))
  | roundedRectangleGeometry (trim : Trim K) (offset size cornerRadius : Option (Vec2 K))
  | pathGeometry (trim : Trim K) (path : Option ObjectId)
  | path (source : Option ObjectId)
  | geometry (outline : Outline K)
  | colorBrush (color : Option Color)
  | insetClip (left top right bottom : Option K)
  | geometricClip (geometry : Option ObjectId)
  | linearEasing
  | cubicBezierEasing (control1 control2 : Vec2 K)
  | stepEasing (steps : Option Int32) (initialSingle finalSingle : Option Bool)
  | keyFrameAnimation (animation : KeyFrameAnimation K)
  | expressionAnimation (animation : ExpressionAnimation)
  | animationController (paused : Bool)
  | propertySet
  | external (typeName : String)
deriving DecidableEq

/-- An object of a scene. -/
structure Object (K : Type) where
  attached : Attachments K := {}
  content : Content K

/-- The kind of a content. -/
def Content.kind {K : Type} : Content K → Kind
  | .containerVisual .. => .containerVisual
  | .shapeVisual .. => .shapeVisual
  | .containerShape .. => .containerShape
  | .spriteShape .. => .spriteShape
  | .ellipseGeometry .. => .ellipseGeometry
  | .rectangleGeometry .. => .rectangleGeometry
  | .roundedRectangleGeometry .. => .roundedRectangleGeometry
  | .pathGeometry .. => .pathGeometry
  | .path .. => .path
  | .geometry .. => .geometry
  | .colorBrush .. => .colorBrush
  | .insetClip .. => .insetClip
  | .geometricClip .. => .geometricClip
  | .linearEasing => .linearEasing
  | .cubicBezierEasing .. => .cubicBezierEasing
  | .stepEasing .. => .stepEasing
  | .keyFrameAnimation .. => .keyFrameAnimation
  | .expressionAnimation .. => .expressionAnimation
  | .animationController .. => .animationController
  | .propertySet => .propertySet
  | .external .. => .external

/-- The kind of an object. -/
def Object.kind {K : Type} (o : Object K) : Kind := o.content.kind

/-- The shapes that a container of shapes holds. -/
def Content.shapes? {K : Type} : Content K → Option (List ObjectId)
  | .shapeVisual _ shapes => some shapes
  | .containerShape _ shapes => some shapes
  | _ => none

/-- Whether an object is an animation. -/
def Content.isAnimation {K : Type} : Content K → Bool
  | .keyFrameAnimation _ => true
  | .expressionAnimation _ => true
  | _ => false

/-- Whether the value may stand in an animation of the kind; an expression may stand in any. -/
def KeyFrameValue.fits {K : Type} : KeyFrameValue K → ValueKind → Bool
  | .expression _, _ => true
  | .scalar _, .scalar => true
  | .vector2 _, .vector2 => true
  | .vector3 _, .vector3 => true
  | .vector4 _, .vector4 => true
  | .color _, .color => true
  | .boolean _, .boolean => true
  | .path _, .path => true
  | _, _ => false

namespace ShapeTransform

variable {K : Type}

/-- Whether something other than the matrix is set. -/
def isSeparate (t : ShapeTransform K) : Bool :=
  t.centerPoint.isSome || t.offset.isSome || t.scale.isSome || t.rotation.isSome

/-- Whether nothing is set. -/
def isUnset (t : ShapeTransform K) : Bool := !t.isSeparate && t.matrix.isNone

end ShapeTransform

namespace Visual

variable {K : Type}

/-- Whether a part of the transform other than the matrix is set. -/
def isSeparate (v : Visual K) : Bool :=
  v.centerPoint.isSome || v.offset.isSome || v.scale.isSome || v.rotation.isSome

/-- Whether something other than the matrix is set. -/
def isMoreThanMatrix (v : Visual K) : Bool :=
  v.isSeparate || v.size.isSome || v.opacity.isSome || v.isVisible.isSome || v.clip.isSome

/-- Whether nothing is set. -/
def isUnset (v : Visual K) : Bool := !v.isMoreThanMatrix && v.matrix.isNone

end Visual

/-! ## Changing the scalars -/

section MapScalars

variable {K L : Type} (f : K → L)

def ShapeTransform.mapScalars (t : ShapeTransform K) : ShapeTransform L where
  centerPoint := t.centerPoint.map (·.map f)
  offset := t.offset.map (·.map f)
  scale := t.scale.map (·.map f)
  rotation := t.rotation.map f
  matrix := t.matrix.map (·.map f)

def Visual.mapScalars (v : Visual K) : Visual L where
  centerPoint := v.centerPoint.map (·.map f)
  offset := v.offset.map (·.map f)
  scale := v.scale.map (·.map f)
  rotation := v.rotation.map f
  matrix := v.matrix.map (·.map f)
  size := v.size.map (·.map f)
  opacity := v.opacity.map f
  isVisible := v.isVisible
  clip := v.clip

def Stroke.mapScalars (s : Stroke K) : Stroke L where
  thickness := s.thickness.map f
  miterLimit := s.miterLimit.map f
  startCap := s.startCap
  endCap := s.endCap
  dashCap := s.dashCap
  lineJoin := s.lineJoin
  dashOffset := s.dashOffset.map f
  dashArray := s.dashArray.map f
  isNonScaling := s.isNonScaling

def Sprite.mapScalars (s : Sprite K) : Sprite L where
  transform := s.transform.mapScalars f
  geometry := s.geometry
  fillBrush := s.fillBrush
  strokeBrush := s.strokeBrush
  stroke := s.stroke.mapScalars f

def Trim.mapScalars (t : Trim K) : Trim L := ⟨t.start.map f, t.stop.map f, t.offset.map f⟩

def Segment.mapScalars : Segment K → Segment L
  | .line dest => .line (dest.map f)
  | .cubic control1 control2 dest => .cubic (control1.map f) (control2.map f) (dest.map f)

def Figure.mapScalars (g : Figure K) : Figure L where
  start := g.start.map f
  segments := g.segments.map (·.mapScalars f)
  closed := g.closed

def Outline.mapScalars : Outline K → Outline L
  | .figures fillMode fs => .figures fillMode (fs.map (·.mapScalars f))
  | .group fillMode geometries => .group fillMode geometries
  | .transformed source matrix => .transformed source (matrix.map f)

def KeyFrameValue.mapScalars : KeyFrameValue K → KeyFrameValue L
  | .scalar x => .scalar (f x)
  | .vector2 v => .vector2 (v.map f)
  | .vector3 v => .vector3 (v.map f)
  | .vector4 v => .vector4 (v.map f)
  | .color c => .color c
  | .boolean b => .boolean b
  | .path id => .path id
  | .expression text => .expression text

def KeyFrame.mapScalars (k : KeyFrame K) : KeyFrame L where
  progress := f k.progress
  value := k.value.mapScalars f
  easing := k.easing

def KeyFrameAnimation.mapScalars (a : KeyFrameAnimation K) : KeyFrameAnimation L where
  kind := a.kind
  duration := a.duration
  target := a.target
  frames := a.frames.map (·.mapScalars f)

/-- The same content with other scalars. -/
def Content.mapScalars : Content K → Content L
  | .containerVisual visual children => .containerVisual (visual.mapScalars f) children
  | .shapeVisual visual shapes => .shapeVisual (visual.mapScalars f) shapes
  | .containerShape transform shapes => .containerShape (transform.mapScalars f) shapes
  | .spriteShape sprite => .spriteShape (sprite.mapScalars f)
  | .ellipseGeometry trim center radius =>
    .ellipseGeometry (trim.mapScalars f) (center.map (·.map f)) (radius.map (·.map f))
  | .rectangleGeometry trim offset size =>
    .rectangleGeometry (trim.mapScalars f) (offset.map (·.map f)) (size.map (·.map f))
  | .roundedRectangleGeometry trim offset size cornerRadius =>
    .roundedRectangleGeometry (trim.mapScalars f) (offset.map (·.map f)) (size.map (·.map f))
      (cornerRadius.map (·.map f))
  | .pathGeometry trim p => .pathGeometry (trim.mapScalars f) p
  | .path source => .path source
  | .geometry outline => .geometry (outline.mapScalars f)
  | .colorBrush color => .colorBrush color
  | .insetClip left top right bottom =>
    .insetClip (left.map f) (top.map f) (right.map f) (bottom.map f)
  | .geometricClip g => .geometricClip g
  | .linearEasing => .linearEasing
  | .cubicBezierEasing control1 control2 => .cubicBezierEasing (control1.map f) (control2.map f)
  | .stepEasing steps initialSingle finalSingle => .stepEasing steps initialSingle finalSingle
  | .keyFrameAnimation animation => .keyFrameAnimation (animation.mapScalars f)
  | .expressionAnimation animation => .expressionAnimation animation
  | .animationController paused => .animationController paused
  | .propertySet => .propertySet
  | .external typeName => .external typeName

end MapScalars

/-! ## Changing the ids -/

section MapIds

variable {K : Type} (f : ObjectId → ObjectId)

def Visual.mapIds (v : Visual K) : Visual K := { v with clip := v.clip.map f }

def Sprite.mapIds (s : Sprite K) : Sprite K :=
  { s with
    geometry := s.geometry.map f
    fillBrush := s.fillBrush.map f
    strokeBrush := s.strokeBrush.map f }

def Outline.mapIds : Outline K → Outline K
  | .figures fillMode fs => .figures fillMode fs
  | .group fillMode geometries => .group fillMode (geometries.map f)
  | .transformed source matrix => .transformed (f source) matrix

def KeyFrameValue.mapIds : KeyFrameValue K → KeyFrameValue K
  | .path id => .path (f id)
  | value => value

def KeyFrame.mapIds (k : KeyFrame K) : KeyFrame K :=
  { k with value := k.value.mapIds f, easing := k.easing.map f }

def KeyFrameAnimation.mapIds (a : KeyFrameAnimation K) : KeyFrameAnimation K :=
  { a with frames := a.frames.map (·.mapIds f) }

def ExpressionAnimation.mapIds (a : ExpressionAnimation) : ExpressionAnimation :=
  { a with parameters := a.parameters.map fun p => { p with object := f p.object } }

/-- The same content referring to other objects. -/
def Content.mapIds : Content K → Content K
  | .containerVisual visual children => .containerVisual (visual.mapIds f) (children.map f)
  | .shapeVisual visual shapes => .shapeVisual (visual.mapIds f) (shapes.map f)
  | .containerShape transform shapes => .containerShape transform (shapes.map f)
  | .spriteShape sprite => .spriteShape (sprite.mapIds f)
  | .pathGeometry trim p => .pathGeometry trim (p.map f)
  | .path source => .path (source.map f)
  | .geometry outline => .geometry (outline.mapIds f)
  | .geometricClip g => .geometricClip (g.map f)
  | .keyFrameAnimation animation => .keyFrameAnimation (animation.mapIds f)
  | .expressionAnimation animation => .expressionAnimation (animation.mapIds f)
  | content => content

/-- The same object referring to other objects. -/
def Object.mapIds (o : Object K) : Object K :=
  ⟨o.attached.mapIds f, o.content.mapIds f⟩

end MapIds
end Diorama
