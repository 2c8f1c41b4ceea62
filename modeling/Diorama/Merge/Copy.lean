/-
  One object per class.

  The copy of a scene holds one object for every class that the root reaches, with every reference
  led to the copy of the class it referred to.  Objects are numbered in the order in which their
  copies are finished by a depth-first walk over the classes, so an object comes after everything it
  refers to and the root comes last.

  On the way properties with their default value are unset, comments of a class that merged several
  objects are dropped if comments were ignored in merging, and the animations that animators run are
  frozen, since several objects may share them.

  An object of a kind that the library does not know cannot be copied.
-/
import Diorama.Merge.Classes
import Diorama.Object.Default

set_option linter.unusedVariables false

namespace Diorama.Merge

/-! ## The order of copies -/

/-- The number of positions that are not in a list. -/
def unentered (n : Nat) (entered : List Nat) : Nat :=
  ((List.range n).filter fun p => decide (p ∉ entered)).length

theorem unentered_append_lt {n r : Nat} {entered : List Nat} (hlt : r < n) (hnew : r ∉ entered) :
    unentered n (entered ++ [r]) < unentered n entered := by
  refine length_filter_lt_length_filter (x := r) ?_ (List.mem_range.mpr hlt) (by simpa) (by simp)
  intro p hp
  simp only [List.mem_append, not_or, decide_eq_true_eq] at hp ⊢
  exact hp.1

/-- A step of the walk over classes that is still to be taken. -/
inductive CopyTask where
  | visit (id : ObjectId)
  | finish (representative : Nat)

/-- Takes the steps that are still to be taken; `entered` and `finished` hold representatives. -/
def copyWalk {K : Type} (s : Scene K) (ix : Index) (c : Classes) (tasks : List CopyTask)
    (entered finished : List Nat) : Except SceneError (List Nat) :=
  match tasks with
  | [] => .ok finished
  | .finish r :: rest => copyWalk s ix c rest entered (finished ++ [r])
  | .visit id :: rest =>
    match ix.position? id with
    | none => .error (.inconsistent ("object " ++ id.text ++ " was not indexed"))
    | some p =>
      if hseen : c.representative p ∈ entered then copyWalk s ix c rest entered finished
      else
        match hid : ix.ids[c.representative p]? with
        | none => .error (.inconsistent ("object " ++ id.text ++ " was not indexed"))
        | some rid =>
          match s.get? rid with
          | none => .error (.danglingReference id rid)
          | some o =>
            match o.content with
            | .external typeName => .error (.unsupported rid typeName .copying)
            | _ =>
              copyWalk s ix c
                (o.copyOrder.map .visit ++ .finish (c.representative p) :: rest)
                (entered ++ [c.representative p]) finished
termination_by (unentered ix.size entered, tasks.length)
decreasing_by
  · exact Prod.Lex.right _ (by simp)
  · exact Prod.Lex.right _ (by simp)
  · refine Prod.Lex.left _ _ (unentered_append_lt ?_ hseen)
    obtain ⟨hlt, -⟩ := List.getElem?_eq_some_iff.mp hid
    simpa [Index.size, Index.ids] using hlt

/-- The representatives in the order of their copies. -/
def copyOrder {K : Type} (s : Scene K) (ix : Index) (c : Classes) :
    Except SceneError (List Nat) :=
  copyWalk s ix c [.visit s.root] [] []

/-! ## The copies -/

/-- The id of the copy of an object. -/
def copyId (ix : Index) (c : Classes) (order : List Nat) (id : ObjectId) : ObjectId :=
  match ix.position? id with
  | some p => .ofIndex (order.idxOf (c.representative p))
  | none => id

section

variable {K : Type} [Scalar K]

/-- The copy of the object that represents a class. -/
def copyObject (c : Classes) (settings : OptimizerSettings) (newId : ObjectId → ObjectId)
    (representative : Nat) (o : Object K) : Object K :=
  let image := o.mapIds newId
  { content :=
      if settings.keepDefaults then image.content else image.content.withoutDefaults
    attached :=
      if settings.ignoreComments && 1 < c.sizeOf representative then image.attached.withoutText
      else image.attached }

/-- Freezes the animations that animators of an object run. -/
def freezeAnimations (s : Scene K) (o : Object K) : Scene K :=
  o.attached.animators.foldl (fun s a => s.freeze a.animation) s

/-- The scene with one object for every class that the root reaches. -/
def copy (s : Scene K) (ix : Index) (c : Classes) (settings : OptimizerSettings) :
    Except SceneError (Scene K) := do
  let order ← copyOrder s ix c
  let newId := copyId ix c order
  let objects := order.filterMap fun r => do
    let o ← s.get? (← ix.ids[r]?)
    return copyObject c settings newId r o
  let bare : Scene K := { root := newId s.root, objects := objects.toArray }
  let out := objects.foldl freezeAnimations bare
  match out.validate with
  | .ok () => .ok out
  | .error e =>
    .error (.inconsistent ("copied graph is not self-contained: " ++ e.message))

end
end Diorama.Merge
