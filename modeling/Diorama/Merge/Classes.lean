/-
  Classes of objects that are the same.

  Objects of an indexed scene are merged category by category, so that what an object refers to has
  mostly been merged when its own turn comes.  A pass goes through the positions of its category,
  children first where objects of one category refer to each other, and joins each object with the
  first one that had the same key.  Keys see the classes as they are at that moment.

  Rounds of all passes are repeated until one leaves the number of classes as it was; then no two
  objects with the same key are apart.  A class is represented by its least position.

  The order of the passes, and of the positions in each, only decides how fast that happens.  `Turn`
  is a pass with an order, `schedule` lists the turns of a round as they are taken.
-/
import Diorama.Merge.DisjointSets
import Diorama.Merge.Key
import Diorama.Scene.Index

namespace Diorama

/-- The classes of a scene's positions. -/
structure Classes where
  /-- The least position of the class of each position. -/
  representatives : List Nat
  /-- The kind of object at every merge that was made. -/
  merges : List Kind
  /-- How many rounds it took; the last one merged nothing. -/
  rounds : Nat

namespace Merge

/-! ## Passes -/

/-- A category of objects that are merged together. -/
structure Pass where
  kinds : List Kind
  childrenFirst : Bool := false

/-- The categories in the order in which they are merged. -/
def passes : List Pass :=
  [{ kinds := [.ellipseGeometry, .rectangleGeometry, .roundedRectangleGeometry] },
    { kinds := [.geometry], childrenFirst := true },
    { kinds := [.path] },
    { kinds := [.pathGeometry] },
    { kinds := [.linearEasing, .cubicBezierEasing, .stepEasing] },
    { kinds := [.keyFrameAnimation] },
    { kinds := [.expressionAnimation] },
    { kinds := [.colorBrush] }]

/-- The positions in the order in which a pass goes through them. -/
def Pass.order (pass : Pass) (ix : Index) : List Nat :=
  if pass.childrenFirst then ix.postOrder else List.range ix.size

/-- A pass and the positions that it goes through, in order. -/
structure Turn where
  pass : Pass
  order : List Nat

/-- The turns of one round. -/
def schedule (ix : Index) : List Turn := passes.map fun pass => ⟨pass, pass.order ix⟩

/-- The classes found so far, and the kind of object at every merge. -/
structure State where
  sets : DisjointSets
  merges : List Kind

section

variable {K : Type} [Scalar K]

/-- The id of the representative of an object. -/
def canonical (ix : Index) (sets : DisjointSets) (id : ObjectId) : ObjectId :=
  match ix.position? id with
  | some p => ix.ids.getD (sets.root p) id
  | none => id

/-- The key of the object at a position, if the pass takes it. -/
def keyAt? (s : Scene K) (ix : Index) (settings : OptimizerSettings) (pass : Pass)
    (sets : DisjointSets) (position : Nat) : Option (Kind × MergeKey) := do
  let o ← s.get? (← ix.ids[position]?)
  if pass.kinds.contains o.kind && o.isEligible settings then
    return (o.kind, ← o.mergeKey? (canonical ix sets))
  else none

/-- Goes on through the positions of a pass; `first` holds the first position of every key. -/
def runPositions (s : Scene K) (ix : Index) (settings : OptimizerSettings) (pass : Pass) :
    List Nat → List (MergeKey × Nat) → State → State
  | [], _, state => state
  | p :: rest, first, state =>
    match keyAt? s ix settings pass state.sets p with
    | none => runPositions s ix settings pass rest first state
    | some (kind, key) =>
      match first.lookup key with
      | none => runPositions s ix settings pass rest ((key, p) :: first) state
      | some q =>
        let (joined, sets) := state.sets.union q p
        let merges := if joined then state.merges ++ [kind] else state.merges
        runPositions s ix settings pass rest first ⟨sets, merges⟩

/-- One turn. -/
def runTurn (s : Scene K) (ix : Index) (settings : OptimizerSettings) (state : State)
    (turn : Turn) : State :=
  runPositions s ix settings turn.pass turn.order [] state

/-- One round of turns. -/
def runRound (s : Scene K) (ix : Index) (settings : OptimizerSettings) (turns : List Turn)
    (state : State) : State :=
  turns.foldl (runTurn s ix settings) state

/-- Rounds until one leaves the number of classes as it was; `done` rounds have been made. -/
def runRounds (s : Scene K) (ix : Index) (settings : OptimizerSettings) (turns : List Turn)
    (done : Nat) (state : State) : State × Nat :=
  let next := runRound s ix settings turns state
  if next.sets.count < state.sets.count then runRounds s ix settings turns (done + 1) next
  else (next, done + 1)
termination_by state.sets.count

end
end Merge

namespace Classes

/-- The classes of an indexed scene, merged in rounds of some turns. -/
def inTurns {K : Type} [Scalar K] (s : Scene K) (ix : Index) (settings : OptimizerSettings)
    (turns : List Merge.Turn) : Classes :=
  let (state, rounds) := Merge.runRounds s ix settings turns 0 ⟨.singletons ix.size, []⟩
  ⟨state.sets.flatten.1, state.merges, rounds⟩

/-- The classes of an indexed scene. -/
def ofIndex {K : Type} [Scalar K] (s : Scene K) (ix : Index) (settings : OptimizerSettings) :
    Classes :=
  inTurns s ix settings (Merge.schedule ix)

/-- The representative of a position. -/
def representative (c : Classes) (position : Nat) : Nat :=
  c.representatives.getD position position

/-- The representative of an object, if the object is indexed. -/
def representativeOf? (c : Classes) (ix : Index) (id : ObjectId) : Option ObjectId := do
  ix.ids[c.representative (← ix.position? id)]?

/-- The representatives, in order. -/
def canonicals (c : Classes) : List Nat :=
  (List.range c.representatives.length).filter fun p => c.representative p = p

/-- The number of classes. -/
def count (c : Classes) : Nat := c.canonicals.length

/-- The number of positions in the class of a representative. -/
def sizeOf (c : Classes) (representative : Nat) : Nat := c.representatives.count representative

/-- The kinds with merges and how many there were. -/
def merged (c : Classes) : List (Kind × Nat) :=
  (Kind.all.map fun kind => (kind, c.merges.count kind)).filter fun m => m.2 ≠ 0

end Classes
end Diorama
