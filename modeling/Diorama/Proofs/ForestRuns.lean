/-
  Runs of a disjoint-set forest.

  Finding changes the forest that it reads, so a forest is judged by what a whole run of calls does
  to it.  From the outside a run is known by the pairs that it united.  Their closure, `united`, is
  an equivalence of positions that mentions no forest, and every answer is a statement about it
  (`Answers`).

  Inside there is an array of parents and nothing else.  `Executes` says what a call does to it: two
  loops for every position that is looked up, one that climbs to the root and one that goes up the
  same way again and points everything at the root, and one write that joins two roots.  The loops
  have no bound and the write asks for no order, so that an execution exists at all says that the
  loops end.

  The functions of `DisjointSets` are an execution (`executes_perform`), and after every run the
  trees of the forest are the classes of what was united (`inOneSet_after`).
-/
import Diorama.Proofs.LeastCongruence

namespace Diorama.DisjointSets

open Merge (inOneSet inOneSet_iff inOneSet_union_le)

/-! ## Calls and answers -/

/-- A call on a forest. -/
inductive Call where
  | find (x : Nat)
  | union (a b : Nat)
  | flatten

/-- What a call gives back. -/
inductive Answer where
  | root (r : Nat)
  | joined (apart : Bool)
  | roots (rs : List Nat)

/-- The arguments of a call are below a bound. -/
def Call.Within (n : Nat) : Call → Prop
  | .find x => x < n
  | .union a b => a < n ∧ b < n
  | .flatten => True

/-- Makes a call. -/
def perform (d : DisjointSets) : Call → Answer × DisjointSets
  | .find x => (.root (d.find x).1, (d.find x).2)
  | .union a b => (.joined (d.union a b).1, (d.union a b).2)
  | .flatten => (.roots d.flatten.1, d.flatten.2)

/-- The forest over `0 .. n-1` after some calls. -/
def after (n : Nat) (calls : List Call) : DisjointSets :=
  calls.foldl (fun d call => (d.perform call).2) (singletons n)

/-- The closure of the pairs that some calls united. -/
def united (calls : List Call) : Setoid Nat :=
  Relation.EqvGen.setoid fun a b => Call.union a b ∈ calls

/-- What a call has to answer where the classes are those of an equivalence. -/
def Answers (n : Nat) (E : Setoid Nat) : Call → Answer → Prop
  | .find x, .root r => IsLeast {y | E x y} r
  | .union a b, .joined apart => apart = true ↔ ¬ E a b
  | .flatten, .roots rs => List.Forall₂ (fun x r => IsLeast {y | E x y} r) (List.range n) rs
  | _, _ => False

/-! ## The loops -/

/-- The first loop: go to the parent until a position is its own parent. -/
inductive Climbs (parent : Array Nat) : Nat → Nat → Prop
  | stop {x : Nat} (h : parent[x]? = some x) : Climbs parent x x
  | climb {x y r : Nat} (h : parent[x]? = some y) (hne : y ≠ x) (hrest : Climbs parent y r) :
      Climbs parent x r

/-- The second loop: point a position at the root and go on to its old parent, until that is the
root. -/
inductive Shortens (r : Nat) : Array Nat → Nat → Array Nat → Prop
  | stop {parent : Array Nat} {x : Nat} (h : parent[x]? = some r) : Shortens r parent x parent
  | step {parent out : Array Nat} {x y : Nat} (h : parent[x]? = some y) (hne : y ≠ r)
      (hrest : Shortens r (parent.setIfInBounds x r) y out) : Shortens r parent x out

/-- Both loops from a position. -/
structure Finds (parent : Array Nat) (x r : Nat) (out : Array Nat) : Prop where
  climbs : Climbs parent x r
  shortens : Shortens r parent x out

/-- Both loops from some positions, one after the other. -/
inductive FindsAll : Array Nat → List Nat → List Nat → Array Nat → Prop
  | nil {parent : Array Nat} : FindsAll parent [] [] parent
  | cons {parent mid out : Array Nat} {x r : Nat} {xs rs : List Nat} (h : Finds parent x r mid)
      (hrest : FindsAll mid xs rs out) : FindsAll parent (x :: xs) (r :: rs) out

/-- What a call does to the parents. -/
inductive Executes : Array Nat → Call → Answer → Array Nat → Prop
  | find {parent out : Array Nat} {x r : Nat} (h : Finds parent x r out) :
      Executes parent (.find x) (.root r) out
  | together {parent mid out : Array Nat} {a b r : Nat} (ha : Finds parent a r mid)
      (hb : Finds mid b r out) : Executes parent (.union a b) (.joined false) out
  | apart {parent mid out : Array Nat} {a b ra rb : Nat} (ha : Finds parent a ra mid)
      (hb : Finds mid b rb out) (hne : ra ≠ rb) :
      Executes parent (.union a b) (.joined true) (out.setIfInBounds (max ra rb) (min ra rb))
  | flatten {parent out : Array Nat} {rs : List Nat}
      (h : FindsAll parent (List.range parent.size) rs out) :
      Executes parent .flatten (.roots rs) out

variable (d : DisjointSets)

/-- Climbing from an element ends at its root. -/
theorem climbs_root {x : Nat} (h : x < d.parent.size) : Climbs d.parent x (d.root x) := by
  -- parents go down in the numbers
  induction x using Nat.strongRecOn with
  | ind x ih =>
    have hparent := Array.getElem?_eq_getElem h
    have hle := d.parent_le x h
    by_cases hx : d.parent[x] = x
    · rw [d.root_of_parent_eq h hx]
      exact .stop (by rw [hparent, hx])
    · have hlt : d.parent[x] < x := by omega
      rw [← d.root_parent h]
      exact .climb hparent hx (ih d.parent[x] hlt (Nat.lt_trans hlt h))

/-- Attaching to what is not greater writes one parent. -/
theorem parent_attach_eq {x r : Nat} (h : r ≤ x) :
    (d.attach x r).parent = d.parent.setIfInBounds x r := by
  simp [attach, h]

/-- Compressing shortens the path to the root. -/
theorem shortens_compress {x r : Nat} (h : x < d.parent.size) (hr : d.root x = r) :
    Shortens r d.parent x (d.compress x r).parent := by
  fun_induction compress d x r with
  | case1 d x hx heq => exact .stop (heq ▸ Array.getElem?_eq_getElem hx)
  | case2 d x hx hne hlt ih =>
    have hle : r ≤ x := hr ▸ d.root_le x
    have hroot : (d.attach x r).root d.parent[x] = r := by
      rw [← hr, d.root_attach_root hx, d.root_parent hx]
    refine .step (Array.getElem?_eq_getElem hx) hne ?_
    rw [← d.parent_attach_eq hle]
    refine ih ?_ hroot
    rw [d.parent_attach_eq hle, Array.size_setIfInBounds]
    exact Nat.lt_trans hlt h
  | case3 d x hx hne hge =>
    -- a position that is its own parent is its own root
    have hle := d.parent_le x hx
    have hself : d.parent[x] = x := by omega
    exact absurd (hself.trans ((d.root_of_parent_eq hx hself).symm.trans hr)) hne
  | case4 d x hx => exact absurd h hx

/-- Finding answers with the root and shortens the path. -/
theorem finds_find {x : Nat} (h : x < d.size) : Finds d.parent x (d.root x) (d.find x).2.parent :=
  ⟨d.climbs_root h, d.shortens_compress h rfl⟩

/-- Finding several elements finds them one after the other. -/
theorem findsAll_findAll {xs : List Nat} (h : ∀ x ∈ xs, x < d.size) :
    FindsAll d.parent xs (d.findAll xs).1 (d.findAll xs).2.parent := by
  induction xs generalizing d with
  | nil => exact .nil
  | cons x xs ih =>
    have hrest : ∀ y ∈ xs, y < (d.find x).2.size := by
      intro y hy
      rw [size_find]
      exact h y (List.mem_cons_of_mem _ hy)
    exact .cons (d.finds_find (h x List.mem_cons_self)) (ih _ hrest)

/-- **Calls are executions**: their loops end, with what the functions give. -/
theorem executes_perform {call : Call} (h : call.Within d.size) :
    Executes d.parent call (d.perform call).1 (d.perform call).2.parent := by
  cases call with
  | find x => exact .find (d.finds_find h)
  | union a b =>
    obtain ⟨ha, hb⟩ := h
    have hfa := d.finds_find ha
    have hfb := (d.find a).2.finds_find (x := b) (by rwa [size_find])
    rw [root_find] at hfb
    by_cases hroot : d.root a = d.root b
    · have hunion : d.union a b = (false, ((d.find a).2.find b).2) := by
        simp [union, hroot]
      simp only [perform, hunion]
      exact .together hfa (hroot ▸ hfb)
    · have hunion : d.union a b = (true, ((d.find a).2.find b).2.attach (max (d.root a) (d.root b))
          (min (d.root a) (d.root b))) := by
        simp [union, hroot]
      simp only [perform, hunion]
      rw [parent_attach_eq _ (by omega)]
      exact .apart hfa hfb hroot
  | flatten => exact .flatten (d.findsAll_findAll fun x hx => List.mem_range.mp hx)

/-! ## The classes of a forest -/

/-- Positions in one tree: the closure of the steps from a position to its parent. -/
def linked (parent : Array Nat) : Setoid Nat :=
  Relation.EqvGen.setoid fun x y => parent[x]? = some y

/-- An element is linked with its root. -/
theorem linked_root (x : Nat) : linked d.parent x (d.root x) := by
  induction x using Nat.strongRecOn with
  | ind x ih =>
    by_cases h : x < d.parent.size
    · have hlink : linked d.parent x d.parent[x] :=
        Relation.EqvGen.rel _ _ (Array.getElem?_eq_getElem h)
      have hle := d.parent_le x h
      by_cases hx : d.parent[x] = x
      · rw [d.root_of_parent_eq h hx]
      · rw [← d.root_parent h]
        exact (linked d.parent).trans hlink (ih _ (by omega))
    · rw [d.root_of_size_le (Nat.not_lt.mp h)]

/-- The trees of a forest are told apart by their roots. -/
theorem linked_eq : linked d.parent = inOneSet d := by
  refine le_antisymm (Setoid.eqvGen_le fun x y hxy => ?_) fun x y hxy => ?_
  · obtain ⟨h, rfl⟩ := Array.getElem?_eq_some_iff.mp hxy
    exact (d.root_parent h).symm
  · have hy := d.linked_root y
    rw [← inOneSet_iff.mp hxy] at hy
    exact (linked d.parent).trans (d.linked_root x) ((linked d.parent).symm hy)

/-- A root is the least element of its set. -/
theorem isLeast_root (x : Nat) : IsLeast {y | inOneSet d x y} (d.root x) := by
  refine ⟨(d.root_root x).symm, fun y hy => ?_⟩
  rw [inOneSet_iff.mp hy]
  exact d.root_le y

theorem inOneSet_congr {d d' : DisjointSets} (h : ∀ x, d'.root x = d.root x) :
    inOneSet d' = inOneSet d := by
  ext x y
  rw [inOneSet_iff, inOneSet_iff, h, h]

/-- Joining takes nothing apart. -/
theorem inOneSet_le_union {a b : Nat} (ha : a < d.size) (hb : b < d.size) :
    inOneSet d ≤ inOneSet (d.union a b).2 := by
  intro x y hxy
  rw [inOneSet_iff, d.root_union ha hb, d.root_union ha hb, inOneSet_iff.mp hxy]

/-- Joining puts both elements in one set. -/
theorem inOneSet_union_pair {a b : Nat} (ha : a < d.size) (hb : b < d.size) :
    inOneSet (d.union a b).2 a b := by
  rw [inOneSet_iff, d.root_union ha hb, d.root_union ha hb, if_pos (.inl rfl), if_pos (.inr rfl)]

theorem root_findAll (xs : List Nat) (y : Nat) : (d.findAll xs).2.root y = d.root y := by
  induction xs generalizing d with
  | nil => rfl
  | cons x xs ih => exact (ih (d.find x).2).trans (d.root_find x y)

theorem size_findAll (xs : List Nat) : (d.findAll xs).2.size = d.size := by
  induction xs generalizing d with
  | nil => rfl
  | cons x xs ih => exact (ih (d.find x).2).trans (d.size_find x)

/-! ## What a call does -/

theorem size_perform (call : Call) : (d.perform call).2.size = d.size := by
  cases call with
  | find x => exact d.size_find x
  | union a b => exact d.size_union a b
  | flatten => exact d.size_findAll _

/-- A call answers for the classes of the forest. -/
theorem answers_perform (call : Call) : Answers d.size (inOneSet d) call (d.perform call).1 := by
  cases call with
  | find x => exact d.isLeast_root x
  | union a b =>
    show (d.union a b).1 = true ↔ ¬ inOneSet d a b
    rw [union_fst, decide_eq_true_eq, inOneSet_iff]
  | flatten =>
    show List.Forall₂ _ (List.range d.size) d.flatten.1
    rw [flatten_fst, List.forall₂_map_right_iff, List.forall₂_same]
    exact fun x _ => d.isLeast_root x

/-- More calls unite more. -/
theorem united_mono {calls more : List Call} (h : calls ⊆ more) : united calls ≤ united more :=
  Setoid.eqvGen_le fun _ _ hab => Relation.EqvGen.rel _ _ (h hab)

/-- Calls that unite nothing leave the classes. -/
theorem united_append {calls : List Call} {call : Call} (h : ∀ a b, call ≠ .union a b) :
    united (calls ++ [call]) = united calls := by
  refine le_antisymm (Setoid.eqvGen_le fun a b hab => ?_)
    (united_mono (List.subset_append_left _ _))
  rcases List.mem_append.mp hab with hab | hab
  · exact Relation.EqvGen.rel _ _ hab
  · exact absurd (List.mem_singleton.mp hab).symm (h a b)

/-- **One call** takes the classes of what was united to those of what is united after it. -/
theorem inOneSet_perform {calls : List Call} {call : Call} (hd : inOneSet d = united calls)
    (h : call.Within d.size) : inOneSet (d.perform call).2 = united (calls ++ [call]) := by
  cases call with
  | find x =>
    rw [united_append (by simp), ← hd]
    exact inOneSet_congr (d.root_find x)
  | union a b =>
    obtain ⟨ha, hb⟩ := h
    have hpair : united (calls ++ [.union a b]) a b := Relation.EqvGen.rel _ _ (by simp)
    refine le_antisymm (inOneSet_union_le ha hb ?_ hpair) (Setoid.eqvGen_le fun x y hxy => ?_)
    · rw [hd]
      exact united_mono (List.subset_append_left _ _)
    · rcases List.mem_append.mp hxy with hxy | hxy
      · refine d.inOneSet_le_union ha hb ?_
        rw [hd]
        exact Relation.EqvGen.rel _ _ hxy
      · obtain ⟨rfl, rfl⟩ := Call.union.inj (List.mem_singleton.mp hxy)
        exact d.inOneSet_union_pair ha hb
  | flatten =>
    rw [united_append (by simp), ← hd]
    exact inOneSet_congr (d.root_findAll _)

/-! ## Runs -/

theorem after_append (n : Nat) (calls : List Call) (call : Call) :
    after n (calls ++ [call]) = ((after n calls).perform call).2 := by
  rw [after, List.foldl_append]
  rfl

@[simp] theorem size_after (n : Nat) (calls : List Call) : (after n calls).size = n := by
  induction calls using List.reverseRecOn with
  | nil => exact size_singletons n
  | append_singleton calls call ih => rw [after_append, size_perform, ih]

/-- **After a run** the sets are the classes of what was united. -/
theorem inOneSet_after {n : Nat} {calls : List Call} (h : ∀ call ∈ calls, call.Within n) :
    inOneSet (after n calls) = united calls := by
  induction calls using List.reverseRecOn with
  | nil =>
    refine le_antisymm (fun x y hxy => ?_)
      (Setoid.eqvGen_le fun a b hab => absurd hab List.not_mem_nil)
    have hxy' : x = y := by simpa [after] using inOneSet_iff.mp hxy
    exact hxy' ▸ (united []).refl x
  | append_singleton calls call ih =>
    rw [after_append]
    refine inOneSet_perform _ (ih fun c hc => h c (List.mem_append_left _ hc)) ?_
    rw [size_after]
    exact h call (by simp)

/-- **A forest answers every run of calls by the closure of what was united.**  Start with `n`
positions, each in a set of its own, and make any calls with arguments below `n`.  The loops of the
next call end; no position has a larger parent after it; it finds least positions of classes, tells
whether a pair was apart, or lists the least positions in order, for the classes of what was united
before; the trees after it are the classes of what has been united with it; and shortening the way
to a root changes no tree. -/
theorem run_answers {n : Nat} {calls : List Call} (call : Call)
    (hcalls : ∀ made ∈ calls, made.Within n) (hcall : call.Within n) :
    Executes (after n calls).parent call ((after n calls).perform call).1
      (after n (calls ++ [call])).parent ∧
    (after n (calls ++ [call])).parent.size = n ∧
    (∀ x p : Nat, (after n (calls ++ [call])).parent[x]? = some p → p ≤ x) ∧
    Answers n (united calls) call ((after n calls).perform call).1 ∧
    linked (after n (calls ++ [call])).parent = united (calls ++ [call]) ∧
    ∀ x, linked ((after n calls).find x).2.parent = linked (after n calls).parent := by
  have hclasses := inOneSet_after hcalls
  have hwithin : call.Within (after n calls).size := by rwa [size_after]
  refine ⟨?_, size_after n _, fun x p hp => ?_, ?_, ?_, fun x => ?_⟩
  · rw [after_append]
    exact executes_perform _ hwithin
  · obtain ⟨hx, rfl⟩ := Array.getElem?_eq_some_iff.mp hp
    exact (after n (calls ++ [call])).parent_le x hx
  · have hanswer := (after n calls).answers_perform call
    rwa [size_after, hclasses] at hanswer
  · rw [linked_eq, after_append]
    exact inOneSet_perform _ hclasses hwithin
  · rw [linked_eq, linked_eq]
    exact inOneSet_congr ((after n calls).root_find x)

/-- A run in which a pair is united that is together already. -/
def session : List Call := [.union 4 2, .union 5 4, .union 2 5, .find 5, .union 5 1]

/-- Answers after the session, for all elements and for a pair that is together by then. -/
theorem session_answers :
    ((after 6 session).perform .flatten).1 = .roots [0, 1, 1, 3, 1, 1] ∧
    Answers 6 (united session) .flatten (.roots [0, 1, 1, 3, 1, 1]) ∧
    (after 6 session).perform (.union 4 1) = (.joined false, after 6 (session ++ [.union 4 1])) ∧
    united session 4 1 := by
  have hwithin : ∀ made ∈ session, Call.Within 6 made := by simp [session, Call.Within]
  have hroots : ((after 6 session).perform .flatten).1 = .roots [0, 1, 1, 3, 1, 1] := by cbv
  have hjoined : (after 6 session).perform (.union 4 1) =
      (.joined false, after 6 (session ++ [.union 4 1])) := by
    rw [after_append]
    exact Prod.ext (by cbv) rfl
  have hflatten := (run_answers .flatten hwithin trivial).2.2.2.1
  have hunion := (run_answers (.union 4 1) hwithin ⟨by decide, by decide⟩).2.2.2.1
  rw [hroots] at hflatten
  rw [hjoined] at hunion
  exact ⟨hroots, hflatten, hjoined, not_not.mp fun hapart => Bool.noConfusion (hunion.mpr hapart)⟩

end Diorama.DisjointSets
