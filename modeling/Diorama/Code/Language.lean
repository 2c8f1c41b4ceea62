/-
  How a language spells things.

  Generated code is the same in every language up to spelling.  A `Language` holds the spellings:
  literals, types, access, and the frame of a file.  A spelling that most languages share is the
  default of its field.

  A text literal escapes the quote, the backslash, line feed, carriage return and tab, and holds
  every other character as it is.
-/
import Diorama.Decimal.Layout
import Diorama.Naming.BaseName

namespace Diorama

/-- Who may see a member. -/
inductive Access where
  | everyone
  | sameModule
  | sameClass

/-- The two classes of a generated file. -/
inductive ClassRole where
  /-- The class that hands out the visual. -/
  | entry
  /-- The class that makes the objects. -/
  | instantiator

namespace Language

/-! ## Spellings that languages share -/

/-- A character as it stands in a text literal. -/
def escapeChar : Char → List Char
  | '"' => ['\\', '"']
  | '\\' => ['\\', '\\']
  | '\n' => ['\\', 'n']
  | '\r' => ['\\', 'r']
  | '\t' => ['\\', 't']
  | c => [c]

/-- A text literal; `mark` stands before the opening quote. -/
def quoted (mark s : String) : String :=
  mark ++ String.ofList ('"' :: s.toList.flatMap escapeChar ++ ['"'])

/-- Arguments, separated by commas. -/
def arguments (items : List String) : String := ", ".intercalate items

/-- A constructor with its arguments. -/
def applied (constructor : String) (args : List String) : String :=
  constructor ++ "(" ++ arguments args ++ ")"

/-- The channels of a color, alpha first. -/
def channels (c : Color) : List String :=
  [c.a, c.r, c.g, c.b].map fun x => "0x" ++ hexText 2 x.toNat

def flag (b : Bool) : String := if b then "true" else "false"

def scopeOpen : String := "\x7b"

def scopeClose : String := "\x7d"

def comment (text : String) : String := "// " ++ text

def namespaceLine (name : String) : String := "namespace " ++ name

/-- The digits of a number; both zeros look the same. -/
def digits (layout : Decimal.Layout) (x : Float32) : String :=
  Decimal.write layout (if x == 0 then 0 else x)

end Language

/-- The spellings of a language. -/
structure Language where
  name : String
  extension : String
  null : String
  flagText : Bool → String := Language.flag
  /-- A literal of single precision. -/
  number : Float32 → String
  /-- A whole number. -/
  integer : Int → String := Int.repr
  /-- A text literal. -/
  text : String → String
  /-- A length of time, in ticks of 100 ns. -/
  timeSpan : Int → String
  vector2Text : Vec2 Float32 → String
  vector3Text : Vec3 Float32 → String
  vector4Text : Vec4 Float32 → String
  matrix3x2Text : Matrix3x2 Float32 → String
  matrix4x4Text : Matrix4x4 Float32 → String
  colorText : Color → String
  /-- The word that declares a local variable. -/
  variableWord : String
  /-- A reference to an object of a type. -/
  reference : String → String
  /-- A new object of a type, from arguments. -/
  newObject : String → List String → String
  /-- A new array of references to objects of a type. -/
  newArray : String → List String → String
  /-- What stands between an object and a member. -/
  memberMark : String
  /-- What stands between a type and a member. -/
  staticMark : String
  /-- A value of an enumeration, from the type and the value. -/
  choice : String → String → String := fun type value => type ++ staticMark ++ value
  /-- The method that adds to a collection. -/
  addVerb : String
  /-- A geometry as the source of a path. -/
  geometrySource : String → String := fun geometry => geometry
  opening : String := Language.scopeOpen
  closing : String := Language.scopeClose
  commentLine : String → String := Language.comment
  /-- The lines at the top of a file. -/
  preamble : List String
  namespaceHead : String → String := Language.namespaceLine
  /-- The code that `geometrySource` relies on. -/
  adapter : Option (List String) := none
  /-- Whether the instantiator stands inside the class that uses it. -/
  nestsInstantiator : Bool
  classDeclaration : String → ClassRole → String
  classEnd : String
  /-- The line that starts a group of members with the same access. -/
  accessLabel : Access → Option String
  /-- What stands before a single member. -/
  accessWord : Access → String
  /-- A parameter with its type, from the type and the name. -/
  parameter : String → String → String := fun type name => reference type ++ " " ++ name
  /-- A field from its type and its name; `true` if it is set once. -/
  field : String → String → Bool → String
  /-- The head of a method without parameters, from the type of the result and the name. -/
  method : String → String → String := fun type name => reference type ++ " " ++ name ++ "()"
  /-- The head of a constructor from the class and the parameter. -/
  constructor : String → String → String
  /-- The head of the method that releases what an instance of a class holds. -/
  release : String → String
  /-- The statements that hand out the visual, from the name of the compositor. -/
  entryBody : String → List String

namespace Language

/-- A member of an object. -/
def member (lang : Language) (object name : String) : String := object ++ lang.memberMark ++ name

/-- A member of a type. -/
def staticMember (lang : Language) (type name : String) : String := type ++ lang.staticMark ++ name

end Language
end Diorama
