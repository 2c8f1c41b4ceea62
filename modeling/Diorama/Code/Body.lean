/-
  The body of the method that makes an object.

  `Content.body` says for every kind of object how it is created and which of its properties are
  set, and `attachmentStatements` adds the comment, the property bag and the animators.  Properties
  that are not set are left alone.

  Every object that is referred to is called by its name, so a missing name is an error, and names
  are asked for in the order of the statements.  Controllers are not made: an animator with a paused
  controller pauses it when the animation has been started.
-/
import Diorama.Code.Statement
import Diorama.Naming.Names
import Diorama.Scene.Basic

namespace Diorama

/-- The statements that make an object. -/
structure Body where
  typeName : String
  /-- Statements before the object is created. -/
  before : List Statement := []
  creation : Creation
  /-- Statements after that. -/
  after : List Statement := []

/-- The name of an object that has to have one. -/
def Names.name (names : Names) (id : ObjectId) : Except SceneError String :=
  match names.get? id with
  | some name => .ok name
  | none => .error (.unnamed id)

/-- The call that makes an object. -/
def Names.call (names : Names) (id : ObjectId) : Except SceneError Call := do
  return ⟨id, ← names.name id⟩

namespace Body

/-! ## Properties -/

/-- Sets a property that has a value. -/
def setSome {α : Type} (property : String) (spell : α → Argument) (value : Option α) :
    List Statement :=
  value.toList.map fun v => .set property (spell v)

/-- Sets a property that refers to an object. -/
def setCall (names : Names) (property : String) :
    Option ObjectId → Except SceneError (List Statement)
  | none => .ok []
  | some id => do return [.set property (.call (← names.call id))]

/-- The arguments for an object that may be missing. -/
def optionalCall (names : Names) : Option ObjectId → Except SceneError (List Argument)
  | none => .ok []
  | some id => do return [.call (← names.call id)]

/-- Adds objects to a collection. -/
def appendCalls (names : Names) (collection : String) (ids : List ObjectId) :
    Except SceneError (List Statement) :=
  ids.mapM fun id => do return .append collection (.call (← names.call id))

def visualSettings (names : Names) (v : Visual Float32) : Except SceneError (List Statement) := do
  let clip ← setCall names "Clip" v.clip
  return setSome "CenterPoint" .vector3 v.centerPoint
    ++ setSome "Offset" .vector3 v.offset
    ++ setSome "Scale" .vector3 v.scale
    ++ setSome "RotationAngleInDegrees" .number v.rotation
    ++ setSome "TransformMatrix" .matrix4x4 v.matrix
    ++ setSome "Size" .vector2 v.size
    ++ setSome "Opacity" .number v.opacity
    ++ setSome "IsVisible" .flag v.isVisible
    ++ clip

def shapeSettings (t : ShapeTransform Float32) : List Statement :=
  setSome "CenterPoint" .vector2 t.centerPoint
    ++ setSome "Offset" .vector2 t.offset
    ++ setSome "Scale" .vector2 t.scale
    ++ setSome "RotationAngleInDegrees" .number t.rotation
    ++ setSome "TransformMatrix" .matrix3x2 t.matrix

def capChoice (cap : StrokeCap) : Argument := .choice "CompositionStrokeCap" cap.name

def strokeSettings (s : Stroke Float32) : List Statement :=
  setSome "StrokeThickness" .number s.thickness
    ++ setSome "StrokeMiterLimit" .number s.miterLimit
    ++ setSome "StrokeStartCap" capChoice s.startCap
    ++ setSome "StrokeEndCap" capChoice s.endCap
    ++ setSome "StrokeDashCap" capChoice s.dashCap
    ++ setSome "StrokeLineJoin" (fun j => .choice "CompositionStrokeLineJoin" j.name) s.lineJoin
    ++ setSome "StrokeDashOffset" .number s.dashOffset
    ++ s.dashArray.map (fun dash => .append "StrokeDashArray" (.number dash))
    ++ setSome "IsStrokeNonScaling" .flag s.isNonScaling

def trimSettings (t : Trim Float32) : List Statement :=
  setSome "TrimStart" .number t.start
    ++ setSome "TrimEnd" .number t.stop
    ++ setSome "TrimOffset" .number t.offset

/-! ## Figures -/

def segmentStatement : Segment Float32 → Statement
  | .line dest => .build "AddLine" [.vector2 dest]
  | .cubic control1 control2 dest =>
    .build "AddCubicBezier" [.vector2 control1, .vector2 control2, .vector2 dest]

def figureStatements (f : Figure Float32) : List Statement :=
  .build "BeginFigure" [.vector2 f.start] :: f.segments.map segmentStatement
    ++ [.build "EndFigure" [.choice "CanvasFigureLoop" (if f.closed then "Closed" else "Open")]]

def figuresStatements (fillMode : Option FillMode) (fs : List (Figure Float32)) :
    List Statement :=
  let mode := fillMode.toList.map fun m =>
    .build "SetFilledRegionDetermination" [.choice "CanvasFilledRegionDetermination" m.name]
  .newBuilder :: mode ++ fs.flatMap figureStatements

def ofOutline (names : Names) : Outline Float32 → Except SceneError Body
  | .figures fillMode fs =>
    .ok {
      typeName := "CanvasGeometry"
      before := figuresStatements fillMode fs
      creation := .built }
  | .group fillMode geometries => do
    let calls ← geometries.mapM names.call
    return { typeName := "CanvasGeometry", creation := .group calls (fillMode.getD .alternate) }
  | .transformed source matrix => do
    return { typeName := "CanvasGeometry", creation := .transformed (← names.call source) matrix }

/-! ## Animations -/

/-- The method that inserts a key frame, and the value it inserts. -/
def frameValue (names : Names) : KeyFrameValue Float32 → Except SceneError (String × Argument)
  | .expression text => .ok ("InsertExpressionKeyFrame", .text text)
  | .scalar x => .ok ("InsertKeyFrame", .number x)
  | .vector2 v => .ok ("InsertKeyFrame", .vector2 v)
  | .vector3 v => .ok ("InsertKeyFrame", .vector3 v)
  | .vector4 v => .ok ("InsertKeyFrame", .vector4 v)
  | .color c => .ok ("InsertKeyFrame", .color c)
  | .boolean b => .ok ("InsertKeyFrame", .flag b)
  | .path id => do return ("InsertKeyFrame", .call (← names.call id))

def frameStatement (names : Names) (frame : KeyFrame Float32) : Except SceneError Statement := do
  let (method, value) ← frameValue names frame.value
  let easing ← optionalCall names frame.easing
  return .invoke none method (.number frame.progress :: value :: easing)

def parameterStatement (names : Names) (p : Parameter) : Except SceneError Statement := do
  return .invoke none "SetReferenceParameter" [.text p.name, .call (← names.call p.object)]

/-! ## Objects -/

/-- The statements that make an object, without what is attached to it. -/
def ofContent (names : Names) (id : ObjectId) : Content Float32 → Except SceneError Body
  | .containerVisual visual children => do
    let settings ← visualSettings names visual
    let inserted ← children.mapM fun c => do
      return .invoke (some "Children") "InsertAtTop" [.call (← names.call c)]
    return {
      typeName := "ContainerVisual"
      creation := .compositor "CreateContainerVisual" []
      after := settings ++ inserted }
  | .shapeVisual visual shapes => do
    let settings ← visualSettings names visual
    let added ← appendCalls names "Shapes" shapes
    return {
      typeName := "ShapeVisual"
      creation := .compositor "CreateShapeVisual" []
      after := settings ++ added }
  | .containerShape transform shapes => do
    let added ← appendCalls names "Shapes" shapes
    return {
      typeName := "CompositionContainerShape"
      creation := .compositor "CreateContainerShape" []
      after := shapeSettings transform ++ added }
  | .spriteShape sprite => do
    let geometry ← setCall names "Geometry" sprite.geometry
    let fill ← setCall names "FillBrush" sprite.fillBrush
    let stroke ← setCall names "StrokeBrush" sprite.strokeBrush
    return {
      typeName := "CompositionSpriteShape"
      creation := .compositor "CreateSpriteShape" []
      after := shapeSettings sprite.transform ++ geometry ++ fill ++ stroke
        ++ strokeSettings sprite.stroke }
  | .ellipseGeometry trim center radius =>
    .ok {
      typeName := "CompositionEllipseGeometry"
      creation := .compositor "CreateEllipseGeometry" []
      after := setSome "Center" .vector2 center ++ setSome "Radius" .vector2 radius
        ++ trimSettings trim }
  | .rectangleGeometry trim offset size =>
    .ok {
      typeName := "CompositionRectangleGeometry"
      creation := .compositor "CreateRectangleGeometry" []
      after := setSome "Offset" .vector2 offset ++ setSome "Size" .vector2 size
        ++ trimSettings trim }
  | .roundedRectangleGeometry trim offset size cornerRadius =>
    .ok {
      typeName := "CompositionRoundedRectangleGeometry"
      creation := .compositor "CreateRoundedRectangleGeometry" []
      after := setSome "Offset" .vector2 offset ++ setSome "Size" .vector2 size
        ++ setSome "CornerRadius" .vector2 cornerRadius ++ trimSettings trim }
  | .pathGeometry trim p => do
    return {
      typeName := "CompositionPathGeometry"
      creation := .compositor "CreatePathGeometry" (← optionalCall names p)
      after := trimSettings trim }
  | .path source => do
    return {
      typeName := "CompositionPath"
      creation := .path (← source.mapM names.call) }
  | .geometry outline => ofOutline names outline
  | .colorBrush color =>
    .ok {
      typeName := "CompositionColorBrush"
      creation := .compositor "CreateColorBrush" (color.toList.map .color) }
  | .insetClip left top right bottom =>
    .ok {
      typeName := "InsetClip"
      creation := .compositor "CreateInsetClip" []
      after := setSome "LeftInset" .number left ++ setSome "TopInset" .number top
        ++ setSome "RightInset" .number right ++ setSome "BottomInset" .number bottom }
  | .geometricClip g => do
    return {
      typeName := "CompositionGeometricClip"
      creation := .compositor "CreateGeometricClip" (← optionalCall names g) }
  | .linearEasing =>
    .ok {
      typeName := "LinearEasingFunction"
      creation := .compositor "CreateLinearEasingFunction" [] }
  | .cubicBezierEasing control1 control2 =>
    .ok {
      typeName := "CubicBezierEasingFunction"
      creation := .compositor "CreateCubicBezierEasingFunction"
        [.vector2 control1, .vector2 control2] }
  | .stepEasing steps initialSingle finalSingle =>
    .ok {
      typeName := "StepEasingFunction"
      creation := .compositor "CreateStepEasingFunction" []
      after := setSome "StepCount" (fun n => .integer n.toInt) steps
        ++ setSome "IsInitialStepSingleFrame" .flag initialSingle
        ++ setSome "IsFinalStepSingleFrame" .flag finalSingle }
  | .keyFrameAnimation a => do
    let frames ← a.frames.mapM (frameStatement names)
    let typeName := a.kind.name ++ "KeyFrameAnimation"
    return {
      typeName
      creation := .compositor ("Create" ++ typeName) []
      after := .set "Duration" (.timeSpan a.duration.toInt) :: setSome "Target" .text a.target
        ++ frames }
  | .expressionAnimation a => do
    let parameters ← a.parameters.mapM (parameterStatement names)
    return {
      typeName := "ExpressionAnimation"
      creation := .compositor "CreateExpressionAnimation" [.text a.expression]
      after := setSome "Target" .text a.target ++ parameters }
  | .propertySet =>
    .ok { typeName := "CompositionPropertySet", creation := .compositor "CreatePropertySet" [] }
  | .animationController _ => .error (.unsupported id Kind.animationController.label .emission)
  | .external typeName => .error (.unsupported id typeName .emission)

/-! ## What is attached -/

/-- The method that inserts a value into a property bag, and the value. -/
def propertyValue : PropertyValue Float32 → String × Argument
  | .scalar x => ("InsertScalar", .number x)
  | .vector2 v => ("InsertVector2", .vector2 v)
  | .vector3 v => ("InsertVector3", .vector3 v)
  | .vector4 v => ("InsertVector4", .vector4 v)
  | .color c => ("InsertColor", .color c)
  | .boolean b => ("InsertBoolean", .flag b)

/-- The statements that pause the controller of an animator. -/
def controllerStatements (s : Scene Float32) (target : String) (controller : ObjectId) :
    Except SceneError (List Statement) :=
  match s.get? controller with
  | none => .error (.danglingReference controller controller)
  | some o =>
    match o.content with
    | .animationController true =>
      .ok [.openScope, .findController target, .pauseController, .closeScope]
    | .animationController false => .ok []
    | _ => .error (.unsupported controller o.kind.label .emission)

def animatorStatements (s : Scene Float32) (names : Names) (a : Animator) :
    Except SceneError (List Statement) := do
  let start := .invoke none "StartAnimation" [.text a.target, .call (← names.call a.animation)]
  match a.controller with
  | none => return [start]
  | some controller => return start :: (← controllerStatements s a.target controller)

/-- The comment, the property bag and the animators; the bag of a property set is the object
itself. -/
def attachmentStatements (s : Scene Float32) (names : Names) (o : Object Float32) :
    Except SceneError (List Statement) := do
  let bag := if o.kind = .propertySet then none else some "Properties"
  let properties := o.attached.properties.entries.map fun (name, value) =>
    let (method, argument) := propertyValue value
    .invoke bag method [.text name, argument]
  let animators ← o.attached.animators.mapM (animatorStatements s names)
  return setSome "Comment" .text o.attached.comment ++ properties ++ animators.flatten

/-- Whether an object can carry attachments in code. -/
def canCarry : Kind → Bool
  | .path => false
  | .geometry => false
  | _ => true

/-- The statements that make an object. -/
def ofObject (s : Scene Float32) (names : Names) (id : ObjectId) (o : Object Float32) :
    Except SceneError Body := do
  let body ← ofContent names id o.content
  if canCarry o.kind then
    return { body with after := body.after ++ (← attachmentStatements s names o) }
  else if o.attached.isEmpty then return body
  else throw (.unsupported id (o.kind.label ++ " with metadata") .emission)

/-- The calls that the statements make. -/
def calls (b : Body) : List Call :=
  b.before.flatMap Statement.calls ++ b.creation.calls ++ b.after.flatMap Statement.calls

end Body
end Diorama
