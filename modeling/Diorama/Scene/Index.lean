/-
  The index of a scene.

  Before a scene is merged or emitted, what its root reaches is indexed: every object gets a
  position, its number in the order of a first visit, together with the slots that refer to it; and
  `postOrder` lists the positions so that an object comes after everything it refers to.

  The walk is a list of tasks.  Entering an object puts its references in front, followed by the
  task of leaving it; an object has been left once its position stands in `postOrder`, so a
  reference to an object that was entered and not left closes a cycle.  The walk ends because a step
  either shortens the list or enters an object for the first time.

  The walk refuses what cannot be indexed: a missing root, a dangling reference, a cycle, or an
  animation with a key frame of the wrong type.
-/
import Diorama.Scene.Traversal

set_option linter.unusedVariables false

namespace Diorama

/-- A slot of the object at a position. -/
structure InReference where
  holder : Nat
  slot : Slot
deriving DecidableEq

/-- An indexed object and the slots that refer to it. -/
structure Node where
  object : ObjectId
  inReferences : List InReference

/-- The objects that a root reaches, by position. -/
structure Index where
  nodes : List Node := []
  postOrder : List Nat := []

namespace Index

/-- The indexed objects, by position. -/
def ids (ix : Index) : List ObjectId := ix.nodes.map (·.object)

def size (ix : Index) : Nat := ix.nodes.length

/-- The position of an object. -/
def position? (ix : Index) (id : ObjectId) : Option Nat := ix.ids.idxOf? id

/-- Gives an object the next position. -/
def enter (ix : Index) (id : ObjectId) (inReferences : List InReference) : Index :=
  { ix with nodes := ix.nodes ++ [⟨id, inReferences⟩] }

/-- Records a slot that refers to the object at a position. -/
def refer (ix : Index) (position : Nat) (r : InReference) : Index :=
  { ix with nodes := ix.nodes.modify position fun n =>
      { n with inReferences := n.inReferences ++ [r] } }

/-- Ends the visit of the object at a position. -/
def leave (ix : Index) (position : Nat) : Index :=
  { ix with postOrder := ix.postOrder ++ [position] }

/-- A step of the walk that is still to be taken. -/
inductive Task where
  /-- Follow a reference of the object with this id and position. -/
  | follow (holder : ObjectId) (position : Nat) (reference : Reference)
  /-- Leave the object at this position. -/
  | leave (position : Nat)

/-- What the visit of an object consists of. -/
def Task.visit {K : Type} (o : Object K) (id : ObjectId) (position : Nat) : List Task :=
  o.references.map (.follow id position) ++ [.leave position]

/-- Refuses an animation with a key frame that does not fit it. -/
def checkFrames {K : Type} (id : ObjectId) (o : Object K) : Except SceneError Unit :=
  match o.content with
  | .keyFrameAnimation animation =>
    match animation.frames.findIdx? fun frame => !frame.value.fits animation.kind with
    | some i => .error (.keyFrameMismatch id i animation.kind)
    | none => .ok ()
  | _ => .ok ()

@[simp] theorem ids_enter (ix : Index) (id : ObjectId) (rs : List InReference) :
    (ix.enter id rs).ids = ix.ids ++ [id] := by
  simp [ids, enter]

@[simp] theorem ids_refer (ix : Index) (position : Nat) (r : InReference) :
    (ix.refer position r).ids = ix.ids := by
  apply List.ext_getElem?
  intro i
  simp only [ids, refer, List.getElem?_map, List.getElem?_modify]
  cases ix.nodes[i]? with
  | none => rfl
  | some n => by_cases h : position = i <;> simp [h]

@[simp] theorem ids_leave (ix : Index) (position : Nat) : (ix.leave position).ids = ix.ids := rfl

theorem not_mem_ids_of_position?_eq_none {ix : Index} {id : ObjectId}
    (h : ix.position? id = none) : id ∉ ix.ids := by
  simpa [position?] using h

/-- Takes the steps that are still to be taken. -/
def walk {K : Type} (s : Scene K) (tasks : List Task) (ix : Index) : Except SceneError Index :=
  match tasks with
  | [] => .ok ix
  | .leave position :: rest => walk s rest (ix.leave position)
  | .follow holder position reference :: rest =>
    match hpos : ix.position? reference.target with
    | some p =>
      if p ∈ ix.postOrder then walk s rest (ix.refer p ⟨position, reference.slot⟩)
      else .error (.cycle holder reference.target)
    | none =>
      match hget : s.get? reference.target with
      | none => .error (.danglingReference holder reference.target)
      | some o =>
        match checkFrames reference.target o with
        | .error e => .error e
        | .ok () =>
          walk s (Task.visit o reference.target ix.size ++ rest)
            (ix.enter reference.target [⟨position, reference.slot⟩])
termination_by (s.unseen ix.ids, tasks.length)
decreasing_by
  · exact Prod.Lex.right _ (by simp)
  · rw [ids_refer]
    exact Prod.Lex.right _ (by simp)
  · rw [ids_enter]
    exact Prod.Lex.left _ _ (Scene.unseen_append_lt (not_mem_ids_of_position?_eq_none hpos) hget)

/-- The index of a scene. -/
def build {K : Type} (s : Scene K) : Except SceneError Index :=
  match s.get? s.root with
  | none => .error (.missingRoot s.root)
  | some o => do
    checkFrames s.root o
    walk s (Task.visit o s.root 0) (enter {} s.root [])

end Index
end Diorama
