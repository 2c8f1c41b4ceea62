/-
  Writing the methods of a scene.

  A scribe writes the body of a method line by line, straight in a language: whatever stands on a
  line is put together from the words of the language there and then, and no statement is kept but
  as text.  It goes through an object once, property by property, adds every line to those written
  already, and stops at the first object without a name or without a place in code.
-/
import Diorama.Code.Source

namespace Diorama

/-- Adds lines to those that are there, or gives up. -/
abbrev Writing := StateT (List String) (Except SceneError)

/-- Who writes the methods: the scene, the names of its objects, and the language. -/
structure Scribe where
  scene : Scene Float32
  names : Names
  lang : Language

/-- What a scribe says of an object apart from the lines after its creation. -/
structure WrittenHead where
  typeName : String
  /-- The lines before the object is created. -/
  before : List String := []
  /-- The expression that creates the object. -/
  creation : String

namespace Scribe

/-! ## Words -/

/-- The call of the method that makes an object. -/
def call (w : Scribe) (id : ObjectId) : Except SceneError String := do
  return (← w.names.name id) ++ "()"

/-- The calls of several methods. -/
def calls (w : Scribe) (ids : List ObjectId) : Except SceneError (List String) := ids.mapM w.call

/-- The arguments for an object that may be missing. -/
def optionalCall (w : Scribe) : Option ObjectId → Except SceneError (List String)
  | none => return []
  | some id => do return [← w.call id]

/-- A method of an object, with arguments. -/
def applied (w : Scribe) (object method : String) (args : List String) : String :=
  w.lang.member object method ++ "(" ++ Language.arguments args ++ ")"

/-- The expression in which the compositor makes an object. -/
def create (w : Scribe) (method : String) (args : List String) : String :=
  w.applied Language.compositorName method args

/-- A part of the object that is being made. -/
def part (w : Scribe) (name : String) : String := w.lang.member Language.resultName name

/-! ## Lines -/

/-- One more line. -/
def line (text : String) : Writing Unit := modify fun lines => lines ++ [text]

/-- A line that calls a method. -/
def invoke (w : Scribe) (object method : String) (args : List String) : Writing Unit :=
  line (w.applied object method args ++ ";")

/-- A line that sets a property. -/
def set (w : Scribe) (property value : String) : Writing Unit :=
  line (w.part property ++ " = " ++ value ++ ";")

/-- Sets a property that has a value. -/
def setSome {α : Type} (w : Scribe) (property : String) (spell : α → String) :
    Option α → Writing Unit
  | none => return ()
  | some v => w.set property (spell v)

/-- Sets a property that refers to an object. -/
def setCall (w : Scribe) (property : String) : Option ObjectId → Writing Unit
  | none => return ()
  | some id => do w.set property (← w.call id)

/-- A line that adds to a collection. -/
def add (w : Scribe) (collection value : String) : Writing Unit :=
  w.invoke (w.part collection) w.lang.addVerb [value]

/-- Adds objects to a collection. -/
def addCalls (w : Scribe) (collection : String) (ids : List ObjectId) : Writing Unit :=
  ids.forM fun id => do w.add collection (← w.call id)

/-! ## Properties -/

def visual (w : Scribe) (v : Visual Float32) : Writing Unit := do
  w.setSome "CenterPoint" w.lang.vector3Text v.centerPoint
  w.setSome "Offset" w.lang.vector3Text v.offset
  w.setSome "Scale" w.lang.vector3Text v.scale
  w.setSome "RotationAngleInDegrees" w.lang.number v.rotation
  w.setSome "TransformMatrix" w.lang.matrix4x4Text v.matrix
  w.setSome "Size" w.lang.vector2Text v.size
  w.setSome "Opacity" w.lang.number v.opacity
  w.setSome "IsVisible" w.lang.flagText v.isVisible
  w.setCall "Clip" v.clip

def shape (w : Scribe) (t : ShapeTransform Float32) : Writing Unit := do
  w.setSome "CenterPoint" w.lang.vector2Text t.centerPoint
  w.setSome "Offset" w.lang.vector2Text t.offset
  w.setSome "Scale" w.lang.vector2Text t.scale
  w.setSome "RotationAngleInDegrees" w.lang.number t.rotation
  w.setSome "TransformMatrix" w.lang.matrix3x2Text t.matrix

def cap (w : Scribe) (c : StrokeCap) : String := w.lang.choice "CompositionStrokeCap" c.name

def stroke (w : Scribe) (s : Stroke Float32) : Writing Unit := do
  w.setSome "StrokeThickness" w.lang.number s.thickness
  w.setSome "StrokeMiterLimit" w.lang.number s.miterLimit
  w.setSome "StrokeStartCap" w.cap s.startCap
  w.setSome "StrokeEndCap" w.cap s.endCap
  w.setSome "StrokeDashCap" w.cap s.dashCap
  w.setSome "StrokeLineJoin" (fun j => w.lang.choice "CompositionStrokeLineJoin" j.name) s.lineJoin
  w.setSome "StrokeDashOffset" w.lang.number s.dashOffset
  s.dashArray.forM fun dash => w.add "StrokeDashArray" (w.lang.number dash)
  w.setSome "IsStrokeNonScaling" w.lang.flagText s.isNonScaling

def trim (w : Scribe) (t : Trim Float32) : Writing Unit := do
  w.setSome "TrimStart" w.lang.number t.start
  w.setSome "TrimEnd" w.lang.number t.stop
  w.setSome "TrimOffset" w.lang.number t.offset

/-! ## Figures -/

def segment (w : Scribe) : Segment Float32 → Writing Unit
  | .line dest => w.invoke "builder" "AddLine" [w.lang.vector2Text dest]
  | .cubic control1 control2 dest =>
    w.invoke "builder" "AddCubicBezier"
      [w.lang.vector2Text control1, w.lang.vector2Text control2, w.lang.vector2Text dest]

def figure (w : Scribe) (f : Figure Float32) : Writing Unit := do
  w.invoke "builder" "BeginFigure" [w.lang.vector2Text f.start]
  f.segments.forM w.segment
  w.invoke "builder" "EndFigure"
    [w.lang.choice "CanvasFigureLoop" (if f.closed then "Closed" else "Open")]

def fillMode (w : Scribe) (mode : FillMode) : String :=
  w.lang.choice "CanvasFilledRegionDetermination" mode.name

/-- A static method of the type of all geometries. -/
def geometry (w : Scribe) (method : String) : String := w.lang.staticMember "CanvasGeometry" method

/-- The expression that creates a geometry; its figures are written first. -/
def outline (w : Scribe) : Outline Float32 → Writing String
  | .figures mode figures => do
    line (w.lang.declare "builder" (w.lang.newObject "CanvasPathBuilder" [w.lang.null]))
    match mode with
    | none => pure ()
    | some m => w.invoke "builder" "SetFilledRegionDetermination" [w.fillMode m]
    figures.forM w.figure
    return w.geometry "CreatePath" ++ "(builder)"
  | .group mode geometries => do
    let calls ← w.calls geometries
    return w.geometry "CreateGroup" ++ "(" ++
      Language.arguments [w.lang.null, w.lang.newArray "CanvasGeometry" calls,
        w.fillMode (mode.getD .alternate)] ++ ")"
  | .transformed source matrix => do
    return w.applied (← w.call source) "Transform" [w.lang.matrix3x2Text matrix]

/-- The geometry of a path. -/
def pathSource (w : Scribe) : Option ObjectId → Except SceneError String
  | none => return w.lang.null
  | some id => do return w.lang.geometrySource (← w.call id)

/-! ## Animations -/

/-- The method that inserts a key frame, and the value it inserts. -/
def frameValue (w : Scribe) : KeyFrameValue Float32 → Except SceneError (String × String)
  | .expression text => return ("InsertExpressionKeyFrame", w.lang.text text)
  | .scalar x => return ("InsertKeyFrame", w.lang.number x)
  | .vector2 v => return ("InsertKeyFrame", w.lang.vector2Text v)
  | .vector3 v => return ("InsertKeyFrame", w.lang.vector3Text v)
  | .vector4 v => return ("InsertKeyFrame", w.lang.vector4Text v)
  | .color c => return ("InsertKeyFrame", w.lang.colorText c)
  | .boolean b => return ("InsertKeyFrame", w.lang.flagText b)
  | .path id => do return ("InsertKeyFrame", ← w.call id)

def frame (w : Scribe) (f : KeyFrame Float32) : Writing Unit := do
  let (method, value) ← w.frameValue f.value
  let easing ← w.optionalCall f.easing
  w.invoke Language.resultName method (w.lang.number f.progress :: value :: easing)

def parameter (w : Scribe) (p : Parameter) : Writing Unit := do
  w.invoke Language.resultName "SetReferenceParameter" [w.lang.text p.name, ← w.call p.object]

/-! ## Objects -/

/-- Writes an object, without what is attached to it: the lines after its creation are added, and
those before it and the creation are handed back. -/
def content (w : Scribe) (id : ObjectId) : Content Float32 → Writing WrittenHead
  | .containerVisual visual children => do
    w.visual visual
    children.forM fun c => do w.invoke (w.part "Children") "InsertAtTop" [← w.call c]
    return { typeName := "ContainerVisual", creation := w.create "CreateContainerVisual" [] }
  | .shapeVisual visual shapes => do
    w.visual visual
    w.addCalls "Shapes" shapes
    return { typeName := "ShapeVisual", creation := w.create "CreateShapeVisual" [] }
  | .containerShape transform shapes => do
    w.shape transform
    w.addCalls "Shapes" shapes
    return {
      typeName := "CompositionContainerShape"
      creation := w.create "CreateContainerShape" [] }
  | .spriteShape sprite => do
    w.shape sprite.transform
    w.setCall "Geometry" sprite.geometry
    w.setCall "FillBrush" sprite.fillBrush
    w.setCall "StrokeBrush" sprite.strokeBrush
    w.stroke sprite.stroke
    return { typeName := "CompositionSpriteShape", creation := w.create "CreateSpriteShape" [] }
  | .ellipseGeometry trim center radius => do
    w.setSome "Center" w.lang.vector2Text center
    w.setSome "Radius" w.lang.vector2Text radius
    w.trim trim
    return {
      typeName := "CompositionEllipseGeometry"
      creation := w.create "CreateEllipseGeometry" [] }
  | .rectangleGeometry trim offset size => do
    w.setSome "Offset" w.lang.vector2Text offset
    w.setSome "Size" w.lang.vector2Text size
    w.trim trim
    return {
      typeName := "CompositionRectangleGeometry"
      creation := w.create "CreateRectangleGeometry" [] }
  | .roundedRectangleGeometry trim offset size cornerRadius => do
    w.setSome "Offset" w.lang.vector2Text offset
    w.setSome "Size" w.lang.vector2Text size
    w.setSome "CornerRadius" w.lang.vector2Text cornerRadius
    w.trim trim
    return {
      typeName := "CompositionRoundedRectangleGeometry"
      creation := w.create "CreateRoundedRectangleGeometry" [] }
  | .pathGeometry trim p => do
    w.trim trim
    let args ← w.optionalCall p
    return { typeName := "CompositionPathGeometry", creation := w.create "CreatePathGeometry" args }
  | .path source => do
    let geometry ← w.pathSource source
    return {
      typeName := "CompositionPath"
      creation := w.lang.newObject "CompositionPath" [geometry] }
  | .geometry outline => do
    let (creation, before) ← (w.outline outline).run []
    return { typeName := "CanvasGeometry", before, creation }
  | .colorBrush color =>
    return {
      typeName := "CompositionColorBrush"
      creation := w.create "CreateColorBrush" (color.toList.map w.lang.colorText) }
  | .insetClip left top right bottom => do
    w.setSome "LeftInset" w.lang.number left
    w.setSome "TopInset" w.lang.number top
    w.setSome "RightInset" w.lang.number right
    w.setSome "BottomInset" w.lang.number bottom
    return { typeName := "InsetClip", creation := w.create "CreateInsetClip" [] }
  | .geometricClip g => do
    let args ← w.optionalCall g
    return {
      typeName := "CompositionGeometricClip"
      creation := w.create "CreateGeometricClip" args }
  | .linearEasing =>
    return {
      typeName := "LinearEasingFunction"
      creation := w.create "CreateLinearEasingFunction" [] }
  | .cubicBezierEasing control1 control2 =>
    return {
      typeName := "CubicBezierEasingFunction"
      creation := w.create "CreateCubicBezierEasingFunction"
        [w.lang.vector2Text control1, w.lang.vector2Text control2] }
  | .stepEasing steps initialSingle finalSingle => do
    w.setSome "StepCount" (fun n => w.lang.integer n.toInt) steps
    w.setSome "IsInitialStepSingleFrame" w.lang.flagText initialSingle
    w.setSome "IsFinalStepSingleFrame" w.lang.flagText finalSingle
    return { typeName := "StepEasingFunction", creation := w.create "CreateStepEasingFunction" [] }
  | .keyFrameAnimation a => do
    w.set "Duration" (w.lang.timeSpan a.duration.toInt)
    w.setSome "Target" w.lang.text a.target
    a.frames.forM w.frame
    let typeName := a.kind.name ++ "KeyFrameAnimation"
    return { typeName, creation := w.create ("Create" ++ typeName) [] }
  | .expressionAnimation a => do
    w.setSome "Target" w.lang.text a.target
    a.parameters.forM w.parameter
    return {
      typeName := "ExpressionAnimation"
      creation := w.create "CreateExpressionAnimation" [w.lang.text a.expression] }
  | .propertySet =>
    return { typeName := "CompositionPropertySet", creation := w.create "CreatePropertySet" [] }
  | .animationController _ => throw (.unsupported id Kind.animationController.label .emission)
  | .external typeName => throw (.unsupported id typeName .emission)

/-! ## What is attached -/

/-- The method that inserts a value into a property bag, and the value. -/
def propertyValue (w : Scribe) : PropertyValue Float32 → String × String
  | .scalar x => ("InsertScalar", w.lang.number x)
  | .vector2 v => ("InsertVector2", w.lang.vector2Text v)
  | .vector3 v => ("InsertVector3", w.lang.vector3Text v)
  | .vector4 v => ("InsertVector4", w.lang.vector4Text v)
  | .color c => ("InsertColor", w.lang.colorText c)
  | .boolean b => ("InsertBoolean", w.lang.flagText b)

def property (w : Scribe) (bag : String) (entry : String × PropertyValue Float32) : Writing Unit :=
  let (method, value) := w.propertyValue entry.2
  w.invoke bag method [w.lang.text entry.1, value]

/-- Looks up the controller of an animation that has been started and pauses it. -/
def pause (w : Scribe) (target : String) : Writing Unit := do
  line w.lang.opening
  line ("    " ++ w.lang.declare "controller"
    (w.applied Language.resultName "TryGetAnimationController" [w.lang.text target]))
  line ("    " ++ w.applied "controller" "Pause" [] ++ ";")
  line w.lang.closing

/-- A paused controller is paused, another one is left alone. -/
def controller (w : Scribe) (target : String) (id : ObjectId) : Writing Unit :=
  match w.scene.get? id with
  | none => throw (.danglingReference id id)
  | some o =>
    match o.content with
    | .animationController true => w.pause target
    | .animationController false => return ()
    | _ => throw (.unsupported id o.kind.label .emission)

def animator (w : Scribe) (a : Animator) : Writing Unit := do
  w.invoke Language.resultName "StartAnimation" [w.lang.text a.target, ← w.call a.animation]
  match a.controller with
  | none => pure ()
  | some id => w.controller a.target id

/-- The comment, the property bag and the animators; the bag of a property set is the object
itself. -/
def attachments (w : Scribe) (o : Object Float32) : Writing Unit := do
  w.setSome "Comment" w.lang.text o.attached.comment
  let bag := if o.kind = .propertySet then Language.resultName else w.part "Properties"
  o.attached.properties.entries.forM (w.property bag)
  o.attached.animators.forM w.animator

/-! ## Methods -/

/-- Writes an object with what is attached to it. -/
def body (w : Scribe) (id : ObjectId) (o : Object Float32) : Writing WrittenHead := do
  let head ← w.content id o.content
  if Body.canCarry o.kind then
    w.attachments o
    return head
  else if o.attached.isEmpty then return head
  else throw (.unsupported id (o.kind.label ++ " with metadata") .emission)

/-- The method that makes an object; `uses` tells how many references there are to it. -/
def method (w : Scribe) (uses : Nat) (id : ObjectId) (o : Object Float32) :
    Except SceneError WrittenMethod := do
  let name ← w.names.name id
  let (head, after) ← (w.body id o).run []
  let isCached := 1 < uses
  let keep := if isCached then fieldName name ++ " = " else ""
  return {
    object := id
    name
    typeName := head.typeName
    isCached
    statements :=
      head.before ++ w.lang.declare Language.resultName (keep ++ head.creation) :: after
    description := o.attached.longDescription.or o.attached.shortDescription }

end Scribe

/-- The methods that make a scene, written in a language; the one that makes the root has to have a
name as well. -/
def Scene.writeMethods (s : Scene Float32) (names : Names) (lang : Language) :
    Except SceneError (List WrittenMethod) := do
  let ix ← Index.build s
  let slots := s.slotTargets
  let w : Scribe := ⟨s, names, lang⟩
  let methods ← (Instantiator.made s ix).mapM fun (id, o) => w.method (slots.count id) id o
  let _ ← names.name s.root
  return methods

end Diorama
