/-
  Editing a scene in place.

  A pass of the reduction changes objects of a scene one after the other and counts what it did.  It
  can fail at a frozen object; the changes that it made before stay, so a failed pass still has a
  scene.  `Editing` is that: a scene that is carried along and an error that leaves it where it is.

  Every change goes through `change`, which refuses frozen objects, and every pass is a sum of steps
  over a list of objects (`sumOver`).
-/
import Diorama.Scene.Traversal

namespace Diorama

/-! ## What a reduction did -/

/-- How often each edit was made. -/
structure Reduction where
  deadRemoved : Nat := 0
  shapesFolded : Nat := 0
  visualsFolded : Nat := 0
  pushedDown : Nat := 0
  spliced : Nat := 0
deriving DecidableEq

namespace Reduction

/-- All edits together. -/
def total (r : Reduction) : Nat :=
  r.deadRemoved + r.shapesFolded + r.visualsFolded + r.pushedDown + r.spliced

instance instAdd : Add Reduction where
  add a b :=
    { deadRemoved := a.deadRemoved + b.deadRemoved
      shapesFolded := a.shapesFolded + b.shapesFolded
      visualsFolded := a.visualsFolded + b.visualsFolded
      pushedDown := a.pushedDown + b.pushedDown
      spliced := a.spliced + b.spliced }

@[simp] theorem total_add (a b : Reduction) : (a + b).total = a.total + b.total := by
  show Reduction.total ⟨_, _, _, _, _⟩ = _
  simp only [total]
  omega

end Reduction

/-! ## Changes -/

/-- Changes to a scene that stay when a later one fails. -/
abbrev Editing (K : Type) : Type → Type := EStateM SceneError (Scene K)

namespace Editing

variable {K : Type}

/-- Changes one object. -/
def change (id : ObjectId) (f : Object K → Object K) : Editing K Unit := fun s =>
  match s.update id f with
  | .ok next => .ok () next
  | .error e => .error e s

/-- Takes a step for every object and adds up what was done. -/
def sumOver (step : ObjectId → Editing K Reduction) : List ObjectId → Editing K Reduction
  | [] => return {}
  | id :: rest => do
    let first ← step id
    let others ← sumOver step rest
    return first + others

end Editing

/-! ## What edits look at -/

/-- The objects that an expression reads. -/
def Content.read {K : Type} : Content K → List ObjectId
  | .expressionAnimation a => a.parameters.map (·.object)
  | _ => []

/-- The objects in a list of children or shapes. -/
def Content.children {K : Type} : Content K → List ObjectId
  | .containerVisual _ children => children
  | .shapeVisual _ shapes => shapes
  | .containerShape _ shapes => shapes
  | _ => []

/-- The same object with another list of children or shapes, if it has one. -/
def Content.withChildren {K : Type} (children : List ObjectId) : Content K → Content K
  | .containerVisual visual _ => .containerVisual visual children
  | .shapeVisual visual _ => .shapeVisual visual children
  | .containerShape transform _ => .containerShape transform children
  | content => content

/-- The objects that reachable expressions read.  An expression sees the properties of such an
object directly, so they must stay as they are. -/
def Scene.readByExpressions {K : Type} (s : Scene K) : List ObjectId :=
  s.reachable.flatMap fun id =>
    match s.get? id with
    | some o => o.content.read
    | none => []

/-- The number of entries in all lists of children and shapes. -/
def Scene.childCount {K : Type} (s : Scene K) : Nat :=
  (s.objects.toList.flatMap fun o => o.content.children).length

end Diorama
