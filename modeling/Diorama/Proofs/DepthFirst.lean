/-
  The walk as a recursion.

  `Scene.walk` keeps a stack of ids.  An object may wait in it many times, and is marked only when
  its id is taken off.  `Scene.explore` is the traversal that the stack stands for: visit an object,
  then what it refers to in the order of its slots, and skip what has been visited.  The pending
  calls of the recursion are the stack of the walk.

  The two agree on every scene (`walk_append`): what stands on top of the stack is worked off, with
  all that comes of it, before anything below is looked at, and what that adds to the visited
  objects is what the recursion visits.  Nothing is asked of the scene.  References may lead in
  circles, to no object at all, or to one object from several slots, and the root may be missing.
-/
import Diorama.Proofs.Indexability

set_option linter.unusedVariables false

namespace Diorama.Scene

variable {K : Type} {s : Scene K}

/-! ## The recursion -/

/-- Once an object has been seen, it stays so, whatever is seen after it. -/
theorem unseen_append_cons_lt {seen : List ObjectId} {id : ObjectId} {o : Object K}
    (hnew : id ∉ seen) (hget : s.get? id = some o) (more : List ObjectId) :
    s.unseen (seen ++ id :: more) < s.unseen seen := by
  have hle : s.unseen (seen ++ [id] ++ more) ≤ s.unseen (seen ++ [id]) := by
    simp only [unseen, ← List.countP_eq_length_filter]
    refine List.countP_mono_left fun i _ hi => ?_
    rw [List.map_append, decide_eq_true_eq, List.mem_append, not_or] at hi
    exact decide_eq_true hi.1
  have hlt := unseen_append_lt hnew hget
  rw [List.append_assoc, List.singleton_append] at hle
  omega

/-- The visits that a recursive traversal makes when it is called on some objects, one after the
other.  An object that has been visited is skipped, and any other one is visited before what it
refers to. -/
def explore (s : Scene K) (seen : List ObjectId) (ids : List ObjectId) : List ObjectId :=
  match ids with
  | [] => []
  | id :: rest =>
    if hseen : id ∈ seen then s.explore seen rest
    else
      match hget : s.get? id with
      | none => s.explore seen rest
      | some o =>
        let below := s.explore (seen ++ [id]) o.targets
        id :: below ++ s.explore (seen ++ id :: below) rest
termination_by (s.unseen seen, ids.length)
decreasing_by
  · exact Prod.Lex.right _ (by simp)
  · exact Prod.Lex.right _ (by simp)
  · exact Prod.Lex.left _ _ (unseen_append_lt hseen hget)
  · exact Prod.Lex.left _ _ (unseen_append_cons_lt hseen hget _)

/-! ## Steps of the walk -/

/-- What was met is passed over. -/
theorem walk_of_mem {id : ObjectId} {rest seen : List ObjectId} (h : id ∈ seen) :
    s.walk (id :: rest) seen = s.walk rest seen := by
  rw [walk, dif_pos h]

/-- What is not there is passed over. -/
theorem walk_of_none {id : ObjectId} {rest seen : List ObjectId} (hget : s.get? id = none) :
    s.walk (id :: rest) seen = s.walk rest seen := by
  rw [walk]
  split
  · rfl
  · split
    · rfl
    · rename_i o hsome
      rw [hget] at hsome
      cases hsome

/-- What is met first is walked into at once, before its siblings. -/
theorem walk_of_get? {id : ObjectId} {o : Object K} {rest seen : List ObjectId} (h : id ∉ seen)
    (hget : s.get? id = some o) :
    s.walk (id :: rest) seen = s.walk (o.targets ++ rest) (seen ++ [id]) := by
  rw [walk, dif_neg h]
  split
  · rename_i hnone
    rw [hget] at hnone
    cases hnone
  · rename_i o' hsome
    rw [Option.some.inj (hget.symm.trans hsome)]

/-- **The top of the stack is worked off first**, and adds what the recursion visits. -/
theorem walk_append (ids rest seen : List ObjectId) :
    s.walk (ids ++ rest) seen = s.walk rest (seen ++ s.explore seen ids) := by
  -- what lies below is left free, since entering an object puts its references on top of it
  fun_induction explore s seen ids generalizing rest with
  | case1 seen => rw [List.nil_append, List.append_nil]
  | case2 seen id ids hseen ih => rw [List.cons_append, walk_of_mem hseen, ih]
  | case3 seen id ids hnew hget ih => rw [List.cons_append, walk_of_none hget, ih]
  | case4 seen id ids hnew o hget below ihbelow ihrest =>
    calc s.walk (id :: ids ++ rest) seen
        = s.walk (o.targets ++ (ids ++ rest)) (seen ++ [id]) := walk_of_get? hnew hget
      _ = s.walk (ids ++ rest) (seen ++ id :: below) := by
          rw [ihbelow, List.append_assoc, List.singleton_append]
      _ = s.walk rest (seen ++ id :: below ++ s.explore (seen ++ id :: below) ids) := ihrest rest
      _ = s.walk rest (seen ++ (id :: below ++ s.explore (seen ++ id :: below) ids)) := by
          rw [List.append_assoc]

/-- **The walk meets objects in depth-first order.** -/
theorem reachable_eq_explore (s : Scene K) : s.reachable = s.explore [] [s.root] := by
  have h := walk_append (s := s) [s.root] [] []
  rwa [List.append_nil, List.nil_append, walk] at h

/-! ## What is visited -/

/-- Exactly the objects of the arena that the root reaches are listed, wherever other references
lead. -/
theorem mem_reachable_iff_reaches {id : ObjectId} :
    id ∈ s.reachable ↔ id.index < s.size ∧ s.Reaches s.root id := by
  constructor
  · intro h
    exact ⟨exists_get?_iff.mp (get?_of_mem_reachable h), reaches_of_mem_reachable h⟩
  · rintro ⟨hlt, hreaches⟩
    obtain ⟨o, ho⟩ := exists_get?_iff.mpr hlt
    clear hlt
    induction hreaches generalizing o with
    | refl => exact root_mem_reachable ho
    | tail _ hbc ih =>
      -- an object that holds a reference is one of the arena
      obtain ⟨b, hb, -⟩ := exists_get?_of_refers hbc
      exact mem_reachable_of_refers (ih b hb) hbc ho

/-- **The reachable objects are listed in the order of a depth-first traversal.**  On every scene
the walk with a stack gives the visits of the recursion, in their order; it repeats nothing; and
what it lists are the objects of the arena to which a chain of references leads from the root. -/
theorem reachable_preorder (s : Scene K) :
    s.reachable = s.explore [] [s.root] ∧ s.reachable.Nodup ∧
      ∀ id, id ∈ s.reachable ↔ id.index < s.size ∧ s.Reaches s.root id :=
  ⟨s.reachable_eq_explore, s.reachable_nodup, fun _ => mem_reachable_iff_reaches⟩

/-- A circle, a reference that leads nowhere, and an object in three slots. -/
def tangle : Scene (BitVec 32) where
  root := ⟨0⟩
  objects := #[
    { content := .containerVisual {} [⟨2⟩, ⟨1⟩, ⟨2⟩] },
    { content := .containerVisual {} [⟨9⟩, ⟨0⟩] },
    { content := .containerVisual { clip := some ⟨3⟩ } [⟨1⟩, ⟨2⟩] },
    { content := .geometricClip (some ⟨9⟩) }]

example : tangle.reachable = [⟨0⟩, ⟨2⟩, ⟨3⟩, ⟨1⟩] := by cbv

end Diorama.Scene
