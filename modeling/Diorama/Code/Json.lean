/-
  Generated code as JSON: the file, and every method with its statements spelled out.
-/
import Diorama.Code.Source
import Diorama.Object.Json

namespace Diorama

def WrittenMethod.toJson (m : WrittenMethod) : Json :=
  .object [("id", m.object.toJson), ("name", .text m.name), ("type_name", .text m.typeName),
    ("cached", .bool m.isCached),
    ("statements", Json.ofList Json.text m.statements),
    ("description", Json.ofOption Json.text m.description)]

/-- Generated code, with its methods as a scribe has written them. -/
def GeneratedCode.toJson (code : GeneratedCode) (methods : List WrittenMethod) : Json :=
  .object [("language", .text code.language.name),
    ("file_extension", .text code.language.extension),
    ("text", .text code.text),
    ("nodes", Json.ofList WrittenMethod.toJson methods)]

end Diorama
