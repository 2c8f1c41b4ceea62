/-
  Containers that hold nothing.

  A container of shapes without shapes draws nothing and is dropped from every list of shapes.  That
  may leave other containers without shapes, so it is done again until nothing is dropped.  Every
  round that goes on has shortened a list, which is why it ends.
-/
import Diorama.Reduction.Editing

namespace Diorama.Reduction

variable {K : Type}

/-- Whether an object is a container without shapes. -/
def isDead (o : Object K) : Bool :=
  match o.content with
  | .containerShape _ [] => true
  | _ => false

/-- The reachable containers without shapes, the root apart. -/
def deadContainers (s : Scene K) : List ObjectId :=
  s.reachable.filter fun id => id ≠ s.root && (s.get? id).any isDead

/-- Drops dead containers from the shapes of one object. -/
def dropDead (dead : List ObjectId) (id : ObjectId) : Editing K Reduction := do
  let some o := (← get).get? id | return {}
  let some shapes := o.content.shapes? | return {}
  if shapes.any dead.contains then
    let kept := shapes.filter fun c => !dead.contains c
    Editing.change id fun o => { o with content := o.content.withChildren kept }
    return { deadRemoved := shapes.length - kept.length }
  else return {}

/-- Goes on dropping dead containers after `done`. -/
def dropDeadFrom (done : Reduction) (s : Scene K) :
    EStateM.Result SceneError (Scene K) Reduction :=
  match deadContainers s with
  | [] => .ok done s
  | dead =>
    match Editing.sumOver (dropDead dead) s.reachable s with
    | .error e next => .error e next
    | .ok dropped next =>
      if next.childCount < s.childCount then dropDeadFrom (done + dropped) next
      else .ok done next
termination_by s.childCount

/-- Drops dead containers until there are none. -/
def removeDead : Editing K Reduction := dropDeadFrom {}

end Diorama.Reduction
