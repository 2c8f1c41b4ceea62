/-
  Scenes.

  A scene is an arena of objects, the id of its root, and a set of frozen objects.  Objects refer to
  each other by id, so an object that is referred to from several places is shared.  A frozen object
  may not be changed any more; everything that changes an object goes through `Scene.update`, which
  refuses it.
-/
import Diorama.Object.Reference
import Diorama.Scene.Error

namespace Diorama

/-- An arena of objects with a root. -/
structure Scene (K : Type) where
  root : ObjectId := ⟨0⟩
  objects : Array (Object K) := #[]
  frozen : List ObjectId := []

namespace Scene

variable {K : Type}

/-- The number of objects in the arena. -/
def size (s : Scene K) : Nat := s.objects.size

/-- The object with an id. -/
def get? (s : Scene K) (id : ObjectId) : Option (Object K) := s.objects[id.index]?

/-- The object with an id that another object refers to. -/
def resolve (s : Scene K) (holder id : ObjectId) : Except SceneError (Object K) :=
  match s.get? id with
  | some o => .ok o
  | none => .error (.danglingReference holder id)

/-- Adds an object and gives its id. -/
def add (s : Scene K) (o : Object K) : ObjectId × Scene K :=
  (.ofIndex s.size, { s with objects := s.objects.push o })

/-- Puts an object in the place of another one. -/
def set (s : Scene K) (id : ObjectId) (o : Object K) : Scene K :=
  { s with objects := s.objects.setIfInBounds id.index o }

def isFrozen (s : Scene K) (id : ObjectId) : Bool := s.frozen.contains id

/-- Marks an id as frozen. -/
def freeze (s : Scene K) (id : ObjectId) : Scene K :=
  if s.isFrozen id then s else { s with frozen := id :: s.frozen }

/-- The object with an id, if it may be changed. -/
def changeable (s : Scene K) (id : ObjectId) : Except SceneError (Object K) :=
  match s.get? id with
  | some o => if s.isFrozen id then .error (.frozen id o.kind) else .ok o
  | none => .error (.danglingReference id id)

/-- Changes the object with an id. -/
def update (s : Scene K) (id : ObjectId) (f : Object K → Object K) :
    Except SceneError (Scene K) := do
  return s.set id (f (← s.changeable id))

/-- Every id of the arena. -/
def ids (s : Scene K) : List ObjectId := (List.range s.size).map .ofIndex

/-- The frozen objects of the arena, in order. -/
def frozenIds (s : Scene K) : List ObjectId := s.ids.filter s.isFrozen

/-- Checks that the references of one object lead to objects. -/
def checkReferences (s : Scene K) (holder : ObjectId) : List ObjectId → Except SceneError Unit
  | [] => .ok ()
  | id :: rest => do
    let _ ← s.resolve holder id
    s.checkReferences holder rest

/-- Checks that the root and the references of these objects lead to objects. -/
def checkObjects (s : Scene K) : List ObjectId → Except SceneError Unit
  | [] => .ok ()
  | id :: rest => do
    match s.get? id with
    | some o => s.checkReferences id o.targets
    | none => .ok ()
    s.checkObjects rest

/-- Checks that the root and every reference in the arena lead to an object. -/
def validate (s : Scene K) : Except SceneError Unit :=
  match s.get? s.root with
  | none => .error (.missingRoot s.root)
  | some _ => s.checkObjects s.ids

end Scene
end Diorama
