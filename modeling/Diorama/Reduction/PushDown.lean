/-
  Pushing a matrix down.

  A container that sets nothing but a matrix can leave it to its shapes: each of them applies its
  own matrix and then that of the container.  This is done where the container and all its shapes
  are referred to once, so that nobody else sees the change, and where every shape has a plain
  matrix of its own that nothing drives.  The container is left with nothing set and can be spliced.

  The shapes are changed before the container.
-/
import Diorama.Reduction.Fold

namespace Diorama.Reduction

variable {K : Type} [Scalar K]

/-- The matrix and the shapes of a container that sets nothing but a matrix. -/
def matrixContainer? (o : Object K) : Option (Matrix3x2 K × List ObjectId) :=
  match o.content with
  | .containerShape transform shapes =>
    if o.attached.isEmpty && !transform.isSeparate then transform.matrix.map (·, shapes)
    else none
  | _ => none

/-- Whether a shape can take over a matrix. -/
def accepts (o : Object K) : Bool :=
  match o.content with
  | .containerShape transform _ =>
    !o.attached.animatesAny transformProperties && !transform.isSeparate
  | .spriteShape sprite =>
    !o.attached.animatesAny transformProperties && !sprite.transform.isSeparate
  | _ => false

/-- A transform followed by a matrix. -/
def followedBy (m : Matrix3x2 K) (t : ShapeTransform K) : ShapeTransform K :=
  { t with matrix := ((t.matrix.getD .identity).andThen m).unlessIdentity }

/-- A shape that takes over a matrix. -/
def takeOver (m : Matrix3x2 K) : Content K → Content K
  | .containerShape transform shapes => .containerShape (followedBy m transform) shapes
  | .spriteShape sprite => .spriteShape { sprite with transform := followedBy m sprite.transform }
  | content => content

/-- A container without its matrix. -/
def dropMatrix : Content K → Content K
  | .containerShape transform shapes => .containerShape { transform with matrix := none } shapes
  | content => content

/-- Pushes the matrix of one container down; `single` tells which objects nobody else sees. -/
def pushObject (single : ObjectId → Bool) (id : ObjectId) : Editing K Reduction := do
  let s ← get
  if id = s.root || !single id then return {}
  let some (m, shapes) := s.get? id >>= matrixContainer? | return {}
  if shapes.all fun c => single c && (s.get? c).any accepts then
    shapes.forM fun c => Editing.change c fun o => { o with content := takeOver m o.content }
    Editing.change id fun o => { o with content := dropMatrix o.content }
    return { pushedDown := 1 }
  else return {}

/-- Pushes matrices down wherever nobody else sees it. -/
def pushDown : Editing K Reduction := do
  let s ← get
  let slots := s.slotTargets
  let read := s.readByExpressions
  let single := fun id => slots.count id == 1 && !read.contains id
  Editing.sumOver (pushObject single) s.reachable

end Diorama.Reduction
