/-
  References between objects.

  `Object.references` lists every reference an object holds, each with the slot it sits in: first
  those of its content in a fixed order, then those of its animators.  Everything that walks a scene
  walks it in this order.  `Object.copyOrder` holds the same references in the order in which a copy
  of the scene is made.
-/
import Diorama.Object.Content

namespace Diorama

/-- Where a reference sits in the object that holds it. -/
inductive Slot where
  | child (i : Nat)
  | clip
  | geometry
  | fillBrush
  | strokeBrush
  | path
  | source (i : Nat)
  | keyFrameEasing (i : Nat)
  | keyFramePath (i : Nat)
  | parameter (i : Nat)
  | animation (i : Nat)
  | controller (i : Nat)
deriving DecidableEq

/-- A slot as reports name it. -/
def Slot.text : Slot → String
  | .child i => "Child(" ++ i.repr ++ ")"
  | .clip => "Clip"
  | .geometry => "Geometry"
  | .fillBrush => "FillBrush"
  | .strokeBrush => "StrokeBrush"
  | .path => "Path"
  | .source i => "Source(" ++ i.repr ++ ")"
  | .keyFrameEasing i => "KeyFrameEasing(" ++ i.repr ++ ")"
  | .keyFramePath i => "KeyFramePath(" ++ i.repr ++ ")"
  | .parameter i => "Parameter(" ++ i.repr ++ ")"
  | .animation i => "Animation(" ++ i.repr ++ ")"
  | .controller i => "Controller(" ++ i.repr ++ ")"

/-- A slot and the object it refers to. -/
structure Reference where
  slot : Slot
  target : ObjectId
deriving DecidableEq

namespace Reference

/-- A slot that may be unset. -/
def one (slot : Slot) (id : Option ObjectId) : List Reference :=
  id.toList.map fun id => ⟨slot, id⟩

/-- A numbered slot for each id of a list. -/
def many (slot : Nat → Slot) (ids : List ObjectId) : List Reference :=
  ids.zipIdx.map fun (id, i) => ⟨slot i, id⟩

/-- The references of the key frame with a number. -/
def ofKeyFrame {K : Type} (frame : KeyFrame K) (i : Nat) : List Reference :=
  let value := match frame.value with
    | .path id => [⟨.keyFramePath i, id⟩]
    | _ => []
  value ++ one (.keyFrameEasing i) frame.easing

/-- The references of the animator with a number. -/
def ofAnimator (animator : Animator) (i : Nat) : List Reference :=
  ⟨.animation i, animator.animation⟩ :: one (.controller i) animator.controller

end Reference

namespace Content

variable {K : Type}

/-- The references of a content. -/
def references : Content K → List Reference
  | .containerVisual visual children =>
    Reference.one .clip visual.clip ++ Reference.many .child children
  | .shapeVisual visual shapes => Reference.one .clip visual.clip ++ Reference.many .child shapes
  | .containerShape _ shapes => Reference.many .child shapes
  | .spriteShape sprite =>
    Reference.one .geometry sprite.geometry ++ Reference.one .fillBrush sprite.fillBrush ++
      Reference.one .strokeBrush sprite.strokeBrush
  | .pathGeometry _ p => Reference.one .path p
  | .path source => Reference.one (.source 0) source
  | .geometry (.group _ geometries) => Reference.many .source geometries
  | .geometry (.transformed source _) => [⟨.source 0, source⟩]
  | .geometricClip g => Reference.one .geometry g
  | .keyFrameAnimation animation =>
    animation.frames.zipIdx.flatMap fun (frame, i) => Reference.ofKeyFrame frame i
  | .expressionAnimation animation =>
    Reference.many .parameter (animation.parameters.map (·.object))
  | _ => []

/-- Whether a copy visits the content of the object before its animators. -/
def isCopiedFirst : Content K → Bool
  | .geometry _ => true
  | .keyFrameAnimation _ => true
  | .expressionAnimation _ => true
  | _ => false

end Content

namespace Object

variable {K : Type}

/-- The references of the animators of an object. -/
def animatorReferences (o : Object K) : List Reference :=
  o.attached.animators.zipIdx.flatMap fun (animator, i) => Reference.ofAnimator animator i

/-- Every reference of an object. -/
def references (o : Object K) : List Reference := o.content.references ++ o.animatorReferences

/-- The objects that an object refers to, once per slot. -/
def targets (o : Object K) : List ObjectId := o.references.map (·.target)

/-- The objects that an object refers to, in the order in which they are copied. -/
def copyOrder (o : Object K) : List ObjectId :=
  if o.content.isCopiedFirst then o.targets
  else (o.animatorReferences ++ o.content.references).map (·.target)

end Object
end Diorama
