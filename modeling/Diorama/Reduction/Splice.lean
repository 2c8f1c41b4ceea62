/-
  Splicing containers.

  A container that sets nothing and carries nothing can be replaced by what it holds, in its place
  in the list.  Containers of shapes are spliced into lists of shapes, containers of visuals into
  lists of visuals.  One that an expression reads stays.
-/
import Diorama.Reduction.Editing

namespace Diorama.Reduction

variable {K : Type}

/-- What a container holds that nothing keeps from being spliced into a list of shapes
(`inShapes`) or of visuals. -/
def spliceable? (inShapes : Bool) (o : Object K) : Option (List ObjectId) :=
  match o.content, inShapes with
  | .containerShape transform shapes, true =>
    if o.attached.isEmpty && transform.isUnset then some shapes else none
  | .containerVisual visual children, false =>
    if o.attached.isEmpty && visual.isUnset then some children else none
  | _, _ => none

/-- What stands for an entry of a list after splicing, if it is spliced. -/
def replacement? (s : Scene K) (read : List ObjectId) (inShapes : Bool) (id : ObjectId) :
    Option (List ObjectId) :=
  if read.contains id then none else s.get? id >>= spliceable? inShapes

/-- Splices containers into the list of one object. -/
def spliceObject (read : List ObjectId) (id : ObjectId) : Editing K Reduction := do
  let s ← get
  let some o := s.get? id | return {}
  let children := o.content.children
  let replace? := replacement? s read o.content.shapes?.isSome
  let done := children.countP fun c => (replace? c).isSome
  if done = 0 then return {}
  let next := children.flatMap fun c => (replace? c).getD [c]
  Editing.change id fun o => { o with content := o.content.withChildren next }
  return { spliced := done }

/-- Splices every container that sets nothing. -/
def splice : Editing K Reduction := do
  let s ← get
  Editing.sumOver (spliceObject s.readByExpressions) s.reachable

end Diorama.Reduction
