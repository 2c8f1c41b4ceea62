/-
  Statements of generated code.

  Every object is made by a method of its own.  Its body creates the object under the name `result`,
  gives it its properties, and refers to another object by calling the method that makes it.
  Statements are kept as values of these types, in which the calls can be seen; a language only
  decides how they are spelled, one line each.
-/
import Diorama.Code.Language
import Diorama.Object.Id

namespace Diorama

/-! ## What statements say -/

/-- A call of the method that makes an object. -/
structure Call where
  object : ObjectId
  method : String
deriving DecidableEq

/-- A value in a statement. -/
inductive Argument where
  | flag (b : Bool)
  | number (x : Float32)
  | integer (n : Int)
  | text (s : String)
  | timeSpan (ticks : Int)
  | vector2 (v : Vec2 Float32)
  | vector3 (v : Vec3 Float32)
  | vector4 (v : Vec4 Float32)
  | matrix3x2 (m : Matrix3x2 Float32)
  | matrix4x4 (m : Matrix4x4 Float32)
  | color (c : Color)
  | choice (type member : String)
  | call (c : Call)

/-- How an object comes into being. -/
inductive Creation where
  /-- A method of the compositor makes it. -/
  | compositor (method : String) (args : List Argument)
  /-- A new path around a geometry. -/
  | path (source : Option Call)
  /-- A geometry from the figures in the builder. -/
  | built
  /-- A geometry from several ones. -/
  | group (geometries : List Call) (fillMode : FillMode)
  /-- A transformed geometry. -/
  | transformed (source : Call) (matrix : Matrix3x2 Float32)

/-- A line in the body of a method. -/
inductive Statement where
  /-- A new builder of figures. -/
  | newBuilder
  /-- A method of the builder. -/
  | build (method : String) (args : List Argument)
  /-- The object is created, and kept in a field if there is one. -/
  | create (field : Option String) (creation : Creation)
  /-- A property is set. -/
  | set (property : String) (value : Argument)
  /-- A value is added to a collection. -/
  | append (collection : String) (value : Argument)
  /-- A method of the object, or of a part of it. -/
  | invoke (part : Option String) (method : String) (args : List Argument)
  | openScope
  /-- The controller of a running animation is looked up. -/
  | findController (target : String)
  | pauseController
  | closeScope

/-! ## The calls in them -/

def Argument.calls : Argument → List Call
  | .call c => [c]
  | _ => []

def Creation.calls : Creation → List Call
  | .compositor _ args => args.flatMap Argument.calls
  | .path source => source.toList
  | .built => []
  | .group geometries _ => geometries
  | .transformed source _ => [source]

/-- The calls that a statement makes, in order. -/
def Statement.calls : Statement → List Call
  | .newBuilder => []
  | .build _ args => args.flatMap Argument.calls
  | .create _ creation => creation.calls
  | .set _ value => value.calls
  | .append _ value => value.calls
  | .invoke _ _ args => args.flatMap Argument.calls
  | .openScope => []
  | .findController _ => []
  | .pauseController => []
  | .closeScope => []

/-! ## How they are spelled -/

namespace Language

/-- The name of an object while it is made. -/
def resultName : String := "result"

/-- The name of the field that holds the compositor. -/
def compositorName : String := "_c"

def callText (c : Call) : String := c.method ++ "()"

def argument (lang : Language) : Argument → String
  | .flag b => lang.flagText b
  | .number x => lang.number x
  | .integer n => lang.integer n
  | .text s => lang.text s
  | .timeSpan ticks => lang.timeSpan ticks
  | .vector2 v => lang.vector2Text v
  | .vector3 v => lang.vector3Text v
  | .vector4 v => lang.vector4Text v
  | .matrix3x2 m => lang.matrix3x2Text m
  | .matrix4x4 m => lang.matrix4x4Text m
  | .color c => lang.colorText c
  | .choice type member => lang.choice type member
  | .call c => callText c

/-- A method call with arguments. -/
def invocation (lang : Language) (object method : String) (args : List Argument) : String :=
  lang.member object method ++ "(" ++ arguments (args.map lang.argument) ++ ")"

def fillModeText (lang : Language) (mode : FillMode) : String :=
  lang.choice "CanvasFilledRegionDetermination" mode.name

def creation (lang : Language) : Creation → String
  | .compositor method args => lang.invocation compositorName method args
  | .path source =>
    let geometry := source.elim lang.null fun c => lang.geometrySource (callText c)
    lang.newObject "CompositionPath" [geometry]
  | .built => lang.staticMember "CanvasGeometry" "CreatePath" ++ "(builder)"
  | .group geometries fillMode =>
    lang.staticMember "CanvasGeometry" "CreateGroup" ++ "(" ++
      arguments [lang.null, lang.newArray "CanvasGeometry" (geometries.map callText),
        lang.fillModeText fillMode] ++ ")"
  | .transformed source matrix =>
    lang.member (callText source) "Transform" ++ "(" ++ lang.matrix3x2Text matrix ++ ")"

/-- A declaration of a local variable. -/
def declare (lang : Language) (name value : String) : String :=
  lang.variableWord ++ " " ++ name ++ " = " ++ value ++ ";"

/-- A statement as one line. -/
def statement (lang : Language) : Statement → String
  | .newBuilder => lang.declare "builder" (lang.newObject "CanvasPathBuilder" [lang.null])
  | .build method args => lang.invocation "builder" method args ++ ";"
  | .create field c =>
    lang.declare resultName ((field.elim "" fun f => f ++ " = ") ++ lang.creation c)
  | .set property value =>
    lang.member resultName property ++ " = " ++ lang.argument value ++ ";"
  | .append collection value =>
    lang.invocation (lang.member resultName collection) lang.addVerb [value] ++ ";"
  | .invoke part method args =>
    let object := part.elim resultName fun p => lang.member resultName p
    lang.invocation object method args ++ ";"
  | .openScope => lang.opening
  | .findController target =>
    "    " ++ lang.declare "controller"
      (lang.invocation resultName "TryGetAnimationController" [.text target])
  | .pauseController => "    " ++ lang.invocation "controller" "Pause" [] ++ ";"
  | .closeScope => lang.closing

end Language
end Diorama
