/-
  Settings of generated code.
-/
import Diorama.Json.Read
import Diorama.Json.Shape

namespace Diorama

/-- The names in a generated file and the comment at its top. -/
structure CodeSettings where
  namespaceName : String := "Compositions"
  /-- The class that hands out the visual. -/
  className : String := "AnimatedVisual"
  /-- Lines of comment at the top of the file. -/
  headerComment : Option String := none
deriving DecidableEq

namespace CodeSettings

def toJson (c : CodeSettings) : Json :=
  .object [("namespace", .text c.namespaceName), ("class_name", .text c.className),
    ("header_comment", Json.ofOption Json.text c.headerComment)]

def ofJson? (j : Json) : Option CodeSettings := do
  let m ← j.members?
  let missing : CodeSettings := {}
  let namespaceName ← Json.optional m "namespace" missing.namespaceName Json.text?
  let className ← Json.optional m "class_name" missing.className Json.text?
  let headerComment ← Json.optional m "header_comment" none (Json.orNull Json.text?)
  return { namespaceName, className, headerComment }

/-- The settings that a text stores. -/
def ofText (text : String) : Except JsonFault CodeSettings :=
  Json.readAs { names := some ["namespace", "class_name", "header_comment"] } ofJson? text

end CodeSettings
end Diorama
