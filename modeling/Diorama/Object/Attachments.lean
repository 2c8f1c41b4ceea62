/-
  What any object can carry besides its content.

  A comment and two descriptions for people, a bag of named values, and animators that bind an
  animation to a property of the object.

  A property bag keeps the order in which its names were first given, and holds each name once:
  giving a name again replaces its value and keeps its place.  That invariant is part of the type.
-/
import Diorama.Color
import Diorama.Vector
import Diorama.Object.Id

namespace Diorama

/-! ## Property bags -/

/-- A value in a property bag. -/
inductive PropertyValue (K : Type) where
  | scalar (x : K)
  | vector2 (v : Vec2 K)
  | vector3 (v : Vec3 K)
  | vector4 (v : Vec4 K)
  | color (c : Color)
  | boolean (b : Bool)

/-- Named values in order, each name once. -/
structure PropertyBag (K : Type) where
  entries : List (String × PropertyValue K)
  nodup : (entries.map Prod.fst).Nodup

namespace PropertyBag

variable {K : Type}

/-- The bag without entries. -/
def empty : PropertyBag K := ⟨[], List.nodup_nil⟩

def isEmpty (bag : PropertyBag K) : Bool := bag.entries.isEmpty

/-- Replaces the value of a name in its place, or adds the name at the end. -/
def put (name : String) (value : PropertyValue K) :
    List (String × PropertyValue K) → List (String × PropertyValue K)
  | [] => [(name, value)]
  | (key, old) :: rest =>
    if key = name then (key, value) :: rest else (key, old) :: put name value rest

theorem mem_keys_put {name key : String} {value : PropertyValue K}
    {entries : List (String × PropertyValue K)} :
    key ∈ (put name value entries).map Prod.fst ↔ key = name ∨ key ∈ entries.map Prod.fst := by
  induction entries with
  | nil => simp [put]
  | cons e rest ih =>
    obtain ⟨k, old⟩ := e
    by_cases h : k = name <;> grind [put]

theorem nodup_keys_put {name : String} {value : PropertyValue K}
    {entries : List (String × PropertyValue K)} (h : (entries.map Prod.fst).Nodup) :
    ((put name value entries).map Prod.fst).Nodup := by
  induction entries with
  | nil => simp [put]
  | cons e rest ih =>
    obtain ⟨k, old⟩ := e
    obtain ⟨hk, hrest⟩ := List.nodup_cons.mp h
    by_cases hn : k = name
    · simpa [put, hn] using h
    · rw [put, if_neg hn, List.map_cons, List.nodup_cons]
      refine ⟨fun hmem => ?_, ih hrest⟩
      rcases mem_keys_put.mp hmem with rfl | hold
      · exact hn rfl
      · exact hk hold

/-- Gives a name a value. -/
def insert (bag : PropertyBag K) (name : String) (value : PropertyValue K) : PropertyBag K :=
  ⟨put name value bag.entries, nodup_keys_put bag.nodup⟩

end PropertyBag

/-! ## Animators -/

/-- Runs an animation on a property of the object, under a controller if there is one. -/
structure Animator where
  target : String
  animation : ObjectId
  controller : Option ObjectId
deriving DecidableEq

/-- The same animator with other ids. -/
def Animator.mapIds (f : ObjectId → ObjectId) (a : Animator) : Animator :=
  { a with animation := f a.animation, controller := a.controller.map f }

/-- Whether a target is a property or one of its channels, such as `Offset.X` of `Offset`. -/
def Animator.drives (target property : String) : Bool :=
  target = property || (property.toList ++ ['.']).isPrefixOf target.toList

/-! ## Attachments -/

/-- What any object can carry. -/
structure Attachments (K : Type) where
  comment : Option String := none
  shortDescription : Option String := none
  longDescription : Option String := none
  properties : PropertyBag K := .empty
  animators : List Animator := []

namespace Attachments

variable {K : Type}

/-- Whether there is text for people. -/
def hasText (a : Attachments K) : Bool :=
  a.comment.isSome || a.shortDescription.isSome || a.longDescription.isSome

/-- Whether nothing is attached. -/
def isEmpty (a : Attachments K) : Bool :=
  a.animators.isEmpty && a.properties.isEmpty && !a.hasText

/-- Whether some animator drives one of the properties or a channel of one. -/
def animatesAny (a : Attachments K) (properties : List String) : Bool :=
  a.animators.any fun animator => properties.any fun p => Animator.drives animator.target p

/-- The same without text for people. -/
def withoutText (a : Attachments K) : Attachments K :=
  { a with comment := none, shortDescription := none, longDescription := none }

/-- The same with other ids. -/
def mapIds (f : ObjectId → ObjectId) (a : Attachments K) : Attachments K :=
  { a with animators := a.animators.map (·.mapIds f) }

end Attachments

/-- The properties that make up the transform of an object. -/
def transformProperties : List String :=
  ["CenterPoint", "Offset", "Scale", "RotationAngle", "RotationAngleInDegrees", "TransformMatrix"]

end Diorama
