/-
  Keys spelled out.

  A key can be written as one flat list of atoms, which is compared as a whole.  The tag of the kind
  comes first, then the properties in a fixed order, then the animators.  Nothing separates one
  property from the next:

    * a scalar is its word, a reference the position of the representative of what it refers to
    * a list, and a vector, is preceded by its length
    * where a value may be of several sorts, a tag says which
    * a property that is not set is an atom of its own

  Atoms of different sorts are never equal, whatever they hold.
-/
import Diorama.Merge.Classes

namespace Diorama

/-- A piece of a spelled key. -/
inductive Atom where
  | tag (name : String)
  | word (bits : UInt32)
  | number (n : Int)
  | text (s : String)
  | node (position : Nat)
  | flag (b : Bool)
  | unset
deriving DecidableEq

namespace Atom

variable {α : Type}

/-- A property that may be unset. -/
def option (spell : α → List Atom) : Option α → List Atom
  | some a => spell a
  | none => [.unset]

/-- The length of a list, then its entries. -/
def list (spell : α → List Atom) (l : List α) : List Atom :=
  .number (Int.ofNat l.length) :: l.flatMap spell

end Atom

/-! ## Parts -/

/-- The number of a fill mode. -/
def FillMode.number : FillMode → Nat
  | .alternate => 0
  | .winding => 1

def FillMode.spelling (mode : FillMode) : List Atom := [.number (Int.ofNat mode.number)]

def Color.spelling (c : Color) : List Atom := [.number (Int.ofNat c.pack)]

section Scalars

variable {K : Type} (word : K → UInt32)

/-- A single scalar, without a length. -/
def spellScalar (x : K) : List Atom := [.word (word x)]

def Vec2.spelling (v : Vec2 K) : List Atom := Atom.list (spellScalar word) v.toList

def Vec3.spelling (v : Vec3 K) : List Atom := Atom.list (spellScalar word) v.toList

def Vec4.spelling (v : Vec4 K) : List Atom := Atom.list (spellScalar word) v.toList

def Matrix3x2.spelling (m : Matrix3x2 K) : List Atom := Atom.list (spellScalar word) m.toList

def Trim.spelling (t : Trim K) : List Atom :=
  Atom.option (spellScalar word) t.start ++ Atom.option (spellScalar word) t.stop ++
    Atom.option (spellScalar word) t.offset

def Segment.spelling : Segment K → List Atom
  | .line dest => .tag "line" :: dest.spelling word
  | .cubic control1 control2 dest =>
    .tag "cubic" :: (control1.spelling word ++ control2.spelling word ++ dest.spelling word)

def Figure.spelling (g : Figure K) : List Atom :=
  g.start.spelling word ++ .flag g.closed :: Atom.list (·.spelling word) g.segments

end Scalars

/-- A single text. -/
def spellText (s : String) : List Atom := [.text s]

/-- A single flag. -/
def spellFlag (b : Bool) : List Atom := [.flag b]

section References

variable {K : Type} (word : K → UInt32) (node : ObjectId → Atom)

/-- A single reference. -/
def spellReference (id : ObjectId) : List Atom := [node id]

def Outline.spelling : Outline K → List Atom
  | .figures fillMode drawn =>
    .tag "path" :: (Atom.option FillMode.spelling fillMode ++ Atom.list (·.spelling word) drawn)
  | .group fillMode geometries =>
    .tag "group" ::
      (Atom.option FillMode.spelling fillMode ++ Atom.list (spellReference node) geometries)
  | .transformed source matrix =>
    .tag "transformed" :: (spellReference node source ++ matrix.spelling word)

def KeyFrameValue.spelling : KeyFrameValue K → List Atom
  | .scalar x => .tag "scalar" :: spellScalar word x
  | .vector2 v => .tag "vector2" :: v.spelling word
  | .vector3 v => .tag "vector3" :: v.spelling word
  | .vector4 v => .tag "vector4" :: v.spelling word
  | .color c => .tag "color" :: c.spelling
  | .boolean b => .tag "boolean" :: spellFlag b
  | .path id => .tag "path" :: spellReference node id
  | .expression text => .tag "expression" :: spellText text

def KeyFrame.spelling (k : KeyFrame K) : List Atom :=
  spellScalar word k.progress ++ k.value.spelling word node ++
    Atom.option (spellReference node) k.easing

def KeyFrameAnimation.spelling (a : KeyFrameAnimation K) : List Atom :=
  .tag a.kind.name :: .number a.duration.toInt ::
    (Atom.option spellText a.target ++ Atom.list (·.spelling word node) a.frames)

def Parameter.spelling (p : Parameter) : List Atom :=
  spellText p.name ++ spellReference node p.object

def ExpressionAnimation.spelling (a : ExpressionAnimation) : List Atom :=
  spellText a.expression ++ Atom.option spellText a.target ++
    Atom.list (·.spelling node) a.parameters

def Animator.spelling (a : Animator) : List Atom :=
  spellText a.target ++ spellReference node a.animation ++
    Atom.option (spellReference node) a.controller

/-! ## Objects -/

/-- The properties of a content that may be merged. -/
def Content.spelling : Content K → List Atom
  | .ellipseGeometry trim center radius =>
    trim.spelling word ++ Atom.option (·.spelling word) center ++
      Atom.option (·.spelling word) radius
  | .rectangleGeometry trim offset size =>
    trim.spelling word ++ Atom.option (·.spelling word) offset ++
      Atom.option (·.spelling word) size
  | .roundedRectangleGeometry trim offset size cornerRadius =>
    trim.spelling word ++ Atom.option (·.spelling word) offset ++
      Atom.option (·.spelling word) size ++ Atom.option (·.spelling word) cornerRadius
  | .pathGeometry trim p => trim.spelling word ++ Atom.option (spellReference node) p
  | .path source => Atom.option (spellReference node) source
  | .geometry outline => outline.spelling word node
  | .colorBrush color => Atom.option Color.spelling color
  | .cubicBezierEasing control1 control2 => control1.spelling word ++ control2.spelling word
  | .stepEasing steps initialSingle finalSingle =>
    Atom.option (fun n : Int32 => [.number n.toInt]) steps ++
      Atom.option spellFlag initialSingle ++ Atom.option spellFlag finalSingle
  | .keyFrameAnimation animation => animation.spelling word node
  | .expressionAnimation animation => animation.spelling node
  | _ => []

/-- An object from the tag of its kind to its animators. -/
def Object.spelling (o : Object K) : List Atom :=
  .tag o.kind.label ::
    (o.content.spelling word node ++ Atom.list (·.spelling node) o.attached.animators)

end References

/-- How the key of an object is spelled, where `node` spells a reference. -/
def Object.spelling? {K : Type} [Scalar K] (node : ObjectId → Atom) (o : Object K) :
    Option (List Atom) :=
  if o.isMergeable then some (o.spelling Scalar.word node) else none

/-- A reference to an object is spelled as the position of its representative. -/
def Merge.nodeAtom (ix : Index) (sets : DisjointSets) (id : ObjectId) : Atom :=
  match ix.position? id with
  | some p => .node (sets.root p)
  | none => .unset

end Diorama
