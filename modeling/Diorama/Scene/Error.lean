/-
  Why a scene is refused.

  Each case is a cause; `SceneError.message` is the one place that puts it into words.
-/
import Diorama.Object.Content

namespace Diorama

/-- The work in which an object of some kind has no place. -/
inductive Stage where
  | copying
  | sampling
  | emission
deriving DecidableEq

/-- A stage as messages name it. -/
def Stage.text : Stage → String
  | .copying => "graph copy"
  | .sampling => "render evaluation"
  | .emission => "code emission"

/-- What is wrong with a scene. -/
inductive SceneError where
  /-- The root is no object of the scene. -/
  | missingRoot (root : ObjectId)
  /-- An object refers to something that is no object of the scene. -/
  | danglingReference (holder missing : ObjectId)
  /-- An object refers to one that it is reached from. -/
  | cycle (holder target : ObjectId)
  /-- A key frame holds a value of another type than its animation. -/
  | keyFrameMismatch (animation : ObjectId) (index : Nat) (expected : ValueKind)
  /-- A kind of object has no place in a stage. -/
  | unsupported (id : ObjectId) (typeName : String) (stage : Stage)
  /-- A frozen object was to be changed. -/
  | frozen (id : ObjectId) (kind : Kind)
  /-- A result fails its own check. -/
  | inconsistent (detail : String)
  /-- An object has no name in generated code. -/
  | unnamed (id : ObjectId)
deriving DecidableEq

/-- The error in words. -/
def SceneError.message : SceneError → String
  | .missingRoot root => "root object " ++ root.text ++ " does not exist"
  | .danglingReference holder missing =>
    "object " ++ holder.text ++ " references missing object " ++ missing.text
  | .cycle holder target =>
    "cycle detected: object " ++ holder.text ++ " references its ancestor " ++ target.text
  | .keyFrameMismatch animation index expected =>
    "keyframe " ++ index.repr ++ " of animation " ++ animation.text ++ " does not hold a " ++
      expected.name ++ " value"
  | .unsupported id typeName stage =>
    "unsupported object " ++ id.text ++ " of type '" ++ typeName ++ "' in " ++ stage.text
  | .frozen id kind => "object " ++ id.text ++ " (" ++ kind.label ++ ") is frozen"
  | .inconsistent detail => "invariant violated: " ++ detail
  | .unnamed id => "object " ++ id.text ++ " has no generated name"

end Diorama
