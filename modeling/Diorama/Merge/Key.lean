/-
  When two objects are the same for merging.

  The key of an object is its content and its animators, with every scalar replaced by its word and
  every reference by the id of the representative of what it refers to.  Two objects merge when both
  may be merged and their keys are equal; what is attached for people and the property bag are not
  part of the key, since an object that carries them is kept apart in the first place.

  Only objects without a place of their own in the tree have a key: geometries, paths, easings,
  animations and colour brushes.  A brush keeps its identity if it is animated in any way other than
  by a single animation of its colour.
-/
import Diorama.Object.Content
import Diorama.Optimizer.Settings

namespace Diorama

/-- What two objects must share to be merged. -/
structure MergeKey where
  content : Content UInt32
  animators : List Animator
deriving DecidableEq

namespace Object

variable {K : Type}

/-- Whether the object may lose its identity. -/
def isEligible (settings : OptimizerSettings) (o : Object K) : Bool :=
  o.attached.properties.isEmpty && (settings.ignoreComments || !o.attached.hasText)

/-- Whether the animators of a brush leave it mergeable. -/
def hasPlainAnimators (o : Object K) : Bool :=
  match o.attached.animators with
  | [] => true
  | [only] => only.target = "Color"
  | _ => false

/-- Whether objects of this kind are ever merged. -/
def isMergeable (o : Object K) : Bool :=
  match o.kind with
  | .ellipseGeometry | .rectangleGeometry | .roundedRectangleGeometry | .pathGeometry
  | .path | .geometry | .linearEasing | .cubicBezierEasing | .stepEasing
  | .keyFrameAnimation | .expressionAnimation => true
  | .colorBrush => o.hasPlainAnimators
  | _ => false

/-- The key of an object, where `canonical` gives the representative of a referenced object. -/
def mergeKey? [Scalar K] (canonical : ObjectId → ObjectId) (o : Object K) : Option MergeKey :=
  if o.isMergeable then
    let image := o.mapIds canonical
    some ⟨image.content.mapScalars Scalar.word, image.attached.animators⟩
  else none

end Object
end Diorama
