/-
  The methods that make a scene.

  An instantiator has one method for every reachable object, in an order in which a method calls
  only methods before it; the last one makes the root.  Controllers have none: animators look them
  up.  The method of an object that is referred to more than once keeps the object in a field and
  returns it when it is called again, so that everyone gets the same one.

  Nothing here depends on the language in which the methods are written.
-/
import Diorama.Code.Body
import Diorama.Scene.Index

namespace Diorama

/-- The method that makes an object. -/
structure Method where
  object : ObjectId
  name : String
  typeName : String
  /-- Whether the object is kept in a field. -/
  isCached : Bool
  /-- The statements before the object is returned. -/
  statements : List Statement
  description : Option String

/-- The methods that make the objects of a scene. -/
structure Instantiator where
  methods : List Method
  /-- The method that makes the root. -/
  root : String

/-- The field that keeps the object of a method: an underscore and the name with a small first
letter. -/
def fieldName (method : String) : String :=
  match method.toList with
  | [] => "_"
  | first :: rest => String.ofList ('_' :: first.toLower :: rest)

namespace Method

/-- The field of a method, if it has one. -/
def field? (m : Method) : Option String := if m.isCached then some (fieldName m.name) else none

/-- The method that makes an object; `uses` tells how many references there are to it. -/
def ofObject (s : Scene Float32) (names : Names) (uses : Nat) (id : ObjectId)
    (o : Object Float32) : Except SceneError Method := do
  let name ← names.name id
  let body ← Body.ofObject s names id o
  let isCached := 1 < uses
  let field := if isCached then some (fieldName name) else none
  return {
    object := id
    name
    typeName := body.typeName
    isCached
    statements := body.before ++ .create field body.creation :: body.after
    description := o.attached.longDescription.or o.attached.shortDescription }

end Method

namespace Instantiator

/-- Whether the object gets a method; a controller at the root is refused with its method. -/
def isMade (s : Scene Float32) (id : ObjectId) (o : Object Float32) : Bool :=
  o.kind ≠ .animationController || id = s.root

/-- The objects that get a method, in the order of their methods. -/
def made (s : Scene Float32) (ix : Index) : List (ObjectId × Object Float32) :=
  ix.postOrder.filterMap fun p => do
    let id ← ix.ids[p]?
    let o ← s.get? id
    if isMade s id o then some (id, o) else none

/-- The methods that make a scene, called by the given names. -/
def ofScene (s : Scene Float32) (names : Names) : Except SceneError Instantiator := do
  let ix ← Index.build s
  let slots := s.slotTargets
  let methods ← (made s ix).mapM fun (id, o) => Method.ofObject s names (slots.count id) id o
  return ⟨methods, ← names.name s.root⟩

/-- The method of a name. -/
def find? (i : Instantiator) (name : String) : Option Method :=
  i.methods.find? fun m => m.name = name

end Instantiator
end Diorama
