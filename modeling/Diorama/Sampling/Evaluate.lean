/-
  Sampling a scene.

  From the root down, every object adds its transform, its opacity and its expressions to those of
  the objects above it, and every sprite that is reached becomes a sample.  A visual that is not
  visible is skipped with everything below.  A property that a key frame animation drives has the
  animation's value at the time; of several animators of one property the last one counts.

  What an object may hold is followed to the depth given by the number of objects, plus one for a
  reference that leads nowhere.  A scene without cycles is never deeper.
-/
import Diorama.Object.Transform
import Diorama.Sampling.KeyFrames
import Diorama.Sampling.Sample
import Diorama.Scene.Basic

namespace Diorama

variable {K : Type} [Scalar K]

/-! ## Animated properties -/

/-- A scene at a time. -/
structure Moment (K : Type) where
  scene : Scene K
  time : Int64

namespace Moment

/-- The value of an animation. -/
def valueOf (m : Moment K) (id : ObjectId) (a : KeyFrameAnimation K) :
    Except SceneError (Option (KeyFrameValue K)) :=
  let span := Span.find (a.progress m.time) (a.frames.map (·.progress))
  match a.frames[span.lo]?, a.frames[span.hi]? with
  | some here, some next =>
    if span.lo = span.hi then .ok here.value.literal?
    else
      match next.easing with
      | none => .ok (here.value.interpolate? next.value span.fraction)
      | some easing => do
        let e ← m.scene.resolve id easing
        return here.value.interpolate? next.value (e.content.ease span.fraction)
  | _, _ => .ok none

/-- The value that a property is animated to. -/
def animated (m : Moment K) (owner : ObjectId) (o : Object K) (property : String) :
    Except SceneError (Option (KeyFrameValue K)) :=
  match o.attached.animators.reverse.find? fun a => a.target = property with
  | none => .ok none
  | some animator => do
    match (← m.scene.resolve owner animator.animation).content with
    | .keyFrameAnimation a => m.valueOf animator.animation a
    | _ => return none

/-- A scalar property. -/
def scalar (m : Moment K) (owner : ObjectId) (o : Object K) (property : String)
    (own : Option K) : Except SceneError (Option K) := do
  match ← m.animated owner o property with
  | some (.scalar x) => return some x
  | _ => return own

/-- A property that is a vector of the plane. -/
def vector2 (m : Moment K) (owner : ObjectId) (o : Object K) (property : String)
    (own : Option (Vec2 K)) : Except SceneError (Option (Vec2 K)) := do
  match ← m.animated owner o property with
  | some (.vector2 v) => return some v
  | _ => return own

/-- A property that is a vector of space. -/
def vector3 (m : Moment K) (owner : ObjectId) (o : Object K) (property : String)
    (own : Option (Vec3 K)) : Except SceneError (Option (Vec3 K)) := do
  match ← m.animated owner o property with
  | some (.vector3 v) => return some v
  | _ => return own

/-- A rotation in degrees; an animation in radians goes before. -/
def rotation (m : Moment K) (owner : ObjectId) (o : Object K) (own : Option K) :
    Except SceneError (Option K) := do
  let degrees ← m.scalar owner o "RotationAngleInDegrees" own
  let radians ← m.scalar owner o "RotationAngle" none
  return (radians.map Scalar.degrees).or degrees

/-- The expressions that drive properties of an object. -/
def expressionsOf (m : Moment K) (owner : ObjectId) (o : Object K) :
    Except SceneError (List String) := do
  let found ← o.attached.animators.mapM fun a => do
    match (← m.scene.resolve owner a.animation).content with
    | .expressionAnimation e => return [a.target ++ "=" ++ e.expression]
    | _ => return []
  return found.flatten

/-! ## Parts of a sprite -/

/-- The transform of a shape. -/
def shapeMatrix (m : Moment K) (id : ObjectId) (o : Object K) (t : ShapeTransform K) :
    Except SceneError (Matrix3x2 K) := do
  let centerPoint ← m.vector2 id o "CenterPoint" t.centerPoint
  let offset ← m.vector2 id o "Offset" t.offset
  let scale ← m.vector2 id o "Scale" t.scale
  let rotation ← m.rotation id o t.rotation
  return ShapeTransform.toMatrix { centerPoint, offset, scale, rotation, matrix := t.matrix }

/-- The transform, opacity and visibility of a visual. -/
def visualState (m : Moment K) (id : ObjectId) (o : Object K) (v : Visual K) :
    Except SceneError (Matrix3x2 K × K × Bool) := do
  let centerPoint ← m.vector3 id o "CenterPoint" v.centerPoint
  let offset ← m.vector3 id o "Offset" v.offset
  let scale ← m.vector3 id o "Scale" v.scale
  let rotation ← m.rotation id o v.rotation
  let opacity ← m.scalar id o "Opacity" v.opacity
  let visible := match ← m.animated id o "IsVisible" with
    | some (.boolean b) => b
    | _ => v.isVisible.getD true
  let placed := { v with centerPoint, offset, scale, rotation }
  return (placed.toMatrix.flatten, opacity.getD 1, visible)

/-- The colour of a brush and its expressions. -/
def brush (m : Moment K) (owner : ObjectId) :
    Option ObjectId → Except SceneError (Option Color × List String)
  | none => .ok (none, [])
  | some id => do
    let o ← m.scene.resolve owner id
    let expressions ← m.expressionsOf id o
    match o.content with
    | .colorBrush own =>
      match ← m.animated id o "Color" with
      | some (.color c) => return (some c, expressions)
      | _ => return (own, expressions)
    | _ => return (none, expressions)

/-- The part of an outline that is drawn. -/
def trim (m : Moment K) (id : ObjectId) (o : Object K) (t : Trim K) :
    Except SceneError (TrimSample K) := do
  let start ← m.scalar id o "TrimStart" t.start
  let stop ← m.scalar id o "TrimEnd" t.stop
  let offset ← m.scalar id o "TrimOffset" t.offset
  return ⟨start.getD 0, stop.getD 1, offset.getD 0⟩

end Moment

/-- The segment where a transform takes it. -/
def Segment.transform (m : Matrix3x2 K) : Segment K → Segment K
  | .line dest => .line (m.apply dest)
  | .cubic control1 control2 dest => .cubic (m.apply control1) (m.apply control2) (m.apply dest)

/-- The figure where a transform takes it. -/
def Figure.transform (m : Matrix3x2 K) (f : Figure K) : Figure K :=
  { start := m.apply f.start
    segments := f.segments.map (·.transform m)
    closed := f.closed }

/-- The fill mode and the figures of a geometry where a transform takes them. -/
def Scene.flatten (s : Scene K) :
    Nat → ObjectId → ObjectId → Matrix3x2 K → Except SceneError (FillMode × List (Figure K))
  | 0, holder, id, _ => .error (.cycle holder id)
  | depth + 1, holder, id, matrix => do
    match (← s.resolve holder id).content with
    | .geometry (.figures fillMode fs) =>
      return (fillMode.getD .alternate, fs.map (·.transform matrix))
    | .geometry (.group fillMode geometries) =>
      let parts ← geometries.mapM fun g => s.flatten depth id g matrix
      return (fillMode.getD .alternate, (parts.map Prod.snd).flatten)
    | .geometry (.transformed source own) => s.flatten depth id source (own.andThen matrix)
    | _ => return (.alternate, [])

/-- How deep a scene without cycles can be, with one more for a reference that leads nowhere. -/
def Scene.depthLimit (s : Scene K) : Nat := s.size + 1

namespace Moment

/-- The figures of a path. -/
def path (m : Moment K) (holder : ObjectId) :
    Option ObjectId → Except SceneError (OutlineSample K)
  | none => .ok .none
  | some id => do
    let source := match (← m.scene.resolve holder id).content with
      | .path source => source
      | .geometry _ => some id
      | _ => none
    match source with
    | none => return .none
    | some g =>
      let (fillMode, figures) ← m.scene.flatten m.scene.depthLimit id g .identity
      return .path fillMode figures

/-- The outline of a geometry, the part of it that is drawn, and its expressions. -/
def geometry (m : Moment K) (holder : ObjectId) :
    Option ObjectId → Except SceneError (OutlineSample K × TrimSample K × List String)
  | none => .ok (.none, ⟨0, 1, 0⟩, [])
  | some id => do
    let o ← m.scene.resolve holder id
    let expressions ← m.expressionsOf id o
    let vector (property : String) (own : Option (Vec2 K)) : Except SceneError (Vec2 K) := do
      return (← m.vector2 id o property own).getD .zero
    match o.content with
    | .ellipseGeometry trim center radius =>
      let center ← vector "Center" center
      let radius ← vector "Radius" radius
      return (.ellipse center radius, ← m.trim id o trim, expressions)
    | .rectangleGeometry trim offset size =>
      let offset ← vector "Offset" offset
      let size ← vector "Size" size
      return (.rectangle offset size, ← m.trim id o trim, expressions)
    | .roundedRectangleGeometry trim offset size cornerRadius =>
      let offset ← vector "Offset" offset
      let size ← vector "Size" size
      let cornerRadius ← vector "CornerRadius" cornerRadius
      return (.roundedRectangle offset size cornerRadius, ← m.trim id o trim, expressions)
    | .pathGeometry trim own =>
      let path? := match ← m.animated id o "Path" with
        | some (.path p) => some p
        | _ => own
      let outline ← m.path id path?
      return (outline, ← m.trim id o trim, expressions)
    | _ => throw (.unsupported id o.kind.label .sampling)

/-! ## The tree -/

/-- What the objects above add to a sample. -/
structure Surroundings (K : Type) where
  world : Matrix3x2 K
  opacity : K
  expressions : List String

/-- The sample of a sprite. -/
def sprite (m : Moment K) (id : ObjectId) (o : Object K) (s : Sprite K)
    (around : Surroundings K) : Except SceneError (Sample K) := do
  let transform ← m.shapeMatrix id o s.transform
  let (geometry, trim, outlined) ← m.geometry id s.geometry
  let (fill, filled) ← m.brush id s.fillBrush
  let (stroke, stroked) ← m.brush id s.strokeBrush
  let thickness ← m.scalar id o "StrokeThickness" s.stroke.thickness
  return {
    transform := transform.andThen around.world
    opacity := around.opacity
    geometry, trim, fill, stroke
    strokeThickness := thickness.getD 1
    expressions := around.expressions ++ outlined ++ filled ++ stroked }

/-- The samples of an object and everything below it. -/
def visit (m : Moment K) :
    Nat → ObjectId → ObjectId → Surroundings K → Except SceneError (List (Sample K))
  | 0, holder, id, _ => .error (.cycle holder id)
  | depth + 1, holder, id, above => do
    let o ← m.scene.resolve holder id
    let around := { above with expressions := above.expressions ++ (← m.expressionsOf id o) }
    let inside (children : List ObjectId) (around : Surroundings K) := do
      return (← children.mapM fun c => m.visit depth id c around).flatten
    let insideVisual (visual : Visual K) (children : List ObjectId) := do
      let (matrix, opacity, visible) ← m.visualState id o visual
      if visible then
        inside children
          { around with
            world := matrix.andThen above.world
            opacity := above.opacity * opacity }
      else return []
    match o.content with
    | .containerVisual visual children => insideVisual visual children
    | .shapeVisual visual shapes => insideVisual visual shapes
    | .containerShape transform shapes =>
      let matrix ← m.shapeMatrix id o transform
      inside shapes { around with world := matrix.andThen above.world }
    | .spriteShape s => return [← m.sprite id o s around]
    | _ => throw (.unsupported id o.kind.label .sampling)

end Moment

/-- The picture of a scene at a time in ticks of 100 ns. -/
def Scene.sampleAt (s : Scene K) (time : Int64) : Except SceneError (List (Sample K)) :=
  Moment.visit ⟨s, time⟩ s.depthLimit s.root s.root ⟨.identity, 1, []⟩

end Diorama
