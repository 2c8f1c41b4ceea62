/-
  Walking a scene from its root.

  `Scene.reachable` lists the objects that the root reaches, in the order of a depth-first walk that
  visits an object before what it refers to and follows references in slot order.  The walk keeps a
  list of ids still to visit and the list of those visited.  It ends on every scene, also on one
  with cycles and dangling references: a step either shortens the first list, or visits an object
  for the first time, and there are only so many of them (`unseen`).

  `Scene.slotTargets` holds what the slots of reachable objects refer to, so counting an id in it
  counts the references to an object.
-/
import Diorama.Scene.Basic

set_option linter.unusedVariables false

namespace Diorama

/-- A stronger test that fails where the weaker one holds keeps fewer elements. -/
theorem length_filter_lt_length_filter {α : Type} {p q : α → Bool} {l : List α} {x : α}
    (himp : ∀ a, q a = true → p a = true) (hx : x ∈ l) (hp : p x = true) (hq : q x = false) :
    (l.filter q).length < (l.filter p).length := by
  have hle : ∀ l : List α, (l.filter q).length ≤ (l.filter p).length := by
    intro l
    simpa [List.countP_eq_length_filter] using
      List.countP_mono_left (l := l) (fun a _ h => himp a h)
  induction l with
  | nil => cases hx
  | cons a l ih =>
    rcases List.mem_cons.mp hx with rfl | hmem
    · have := hle l
      simp [hp, hq]
      omega
    · have := ih hmem
      by_cases hqa : q a = true
      · simp [hqa, himp a hqa, this]
      · by_cases hpa : p a = true
        · simp [hqa, hpa]
          omega
        · simp [hqa, hpa, this]

namespace Scene

variable {K : Type}

/-- The number of places in the arena whose ids are not in a list. -/
def unseen (s : Scene K) (seen : List ObjectId) : Nat :=
  ((List.range s.size).filter fun i => decide (i ∉ seen.map ObjectId.index)).length

theorem index_lt_size {s : Scene K} {id : ObjectId} {o : Object K} (h : s.get? id = some o) :
    id.index < s.size := by
  obtain ⟨hlt, -⟩ := Array.getElem?_eq_some_iff.mp h
  exact hlt

/-- Seeing an object for the first time leaves fewer unseen. -/
theorem unseen_append_lt {s : Scene K} {seen : List ObjectId} {id : ObjectId} {o : Object K}
    (hnew : id ∉ seen) (hget : s.get? id = some o) :
    s.unseen (seen ++ [id]) < s.unseen seen := by
  refine length_filter_lt_length_filter (x := id.index) ?_ ?_ ?_ ?_
  · intro i hi
    simp only [List.map_append, decide_eq_true_eq, List.mem_append, not_or] at hi ⊢
    exact hi.1
  · exact List.mem_range.mpr (index_lt_size hget)
  · simp only [decide_eq_true_eq, List.mem_map, not_exists, not_and]
    intro other hmem heq
    exact hnew (ObjectId.index_injective heq ▸ hmem)
  · simp

/-- Continues a walk: `work` is still to visit, `seen` has been visited. -/
def walk (s : Scene K) (work seen : List ObjectId) : List ObjectId :=
  match work with
  | [] => seen
  | id :: rest =>
    if hseen : id ∈ seen then s.walk rest seen
    else
      match hget : s.get? id with
      | none => s.walk rest seen
      | some o => s.walk (o.targets ++ rest) (seen ++ [id])
termination_by (s.unseen seen, work.length)
decreasing_by
  · exact Prod.Lex.right _ (by simp)
  · exact Prod.Lex.right _ (by simp)
  · exact Prod.Lex.left _ _ (unseen_append_lt hseen hget)

/-- The objects that the root reaches, each once, in the order of a first visit. -/
def reachable (s : Scene K) : List ObjectId := s.walk [s.root] []

/-- What the slots of an object refer to. -/
def targetsOf (s : Scene K) (id : ObjectId) : List ObjectId :=
  match s.get? id with
  | some o => o.targets
  | none => []

/-- What the slots of all reachable objects refer to. -/
def slotTargets (s : Scene K) : List ObjectId := s.reachable.flatMap s.targetsOf

/-- Every reachable or referenced id with the number of slots that refer to it, by id. -/
def referenceCounts (s : Scene K) : List (ObjectId × Nat) :=
  let slots := s.slotTargets
  let ids := (s.reachable ++ slots).eraseDups.mergeSort fun a b => a.index ≤ b.index
  ids.map fun id => (id, slots.count id)

end Scene
end Diorama
