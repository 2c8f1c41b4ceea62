/-
  Scenes as JSON.

  A scene is stored as the id of its root and the list of its objects; which objects are frozen is
  not stored.  `Scene.ofText` tells apart a text that ends early, a text that is not JSON, and JSON
  of another shape; members of a scene other than these two are only skimmed.
-/
import Diorama.Json.Read
import Diorama.Json.Write
import Diorama.Object.Json
import Diorama.Scene.Basic

namespace Diorama

/-- The object that a text stores. -/
def Object.ofText (text : String) : Except JsonFault (Object Float32) :=
  Json.readAs {} Object.ofJson? text

namespace Scene

def toJson (s : Scene Float32) : Json :=
  .object [("root", s.root.toJson), ("objects", .ofList Object.toJson s.objects.toList)]

def ofJson? (j : Json) : Option (Scene Float32) := do
  let m ← j.members?
  let root ← Json.required m "root" ObjectId.ofJson?
  let objects ← Json.required m "objects" (Json.listOf Object.ofJson?)
  return { root, objects := objects.toArray }

/-- The stored form of a scene. -/
def toText (s : Scene Float32) : String := s.toJson.pretty

/-- The scene that a text stores. -/
def ofText (text : String) : Except JsonFault (Scene Float32) :=
  Json.readAs { names := some ["root", "objects"] } ofJson? text

end Scene
end Diorama
