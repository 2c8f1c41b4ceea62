/-
  Ids and garbage make no difference.

  The index of a renumbered scene is the same index under other ids, so objects keep their
  positions.  From there on everything is said in positions: keys name other ids, but equal keys
  stay equal and different ones stay different, so the same positions are merged in the same order
  (`ofIndex_renumbered`).  Then the classes of both scenes are parallel (`parallel_renumbered`), so
  the copies are equal as they stand.  Everything after that starts from the copy.
-/
import Mathlib
import Diorama.Proofs.MethodCalls
import Diorama.Proofs.ParallelCopies
import Diorama.Proofs.RenumberedIndex

namespace Diorama

variable {K : Type} [Scalar K]

/-! ## Keys -/

namespace Merge

variable {f : ObjectId → ObjectId} {s s' : Scene K} {ix : Index} {settings : OptimizerSettings}

section

variable (h : s.Renumbered f s') (hix : ix.Sound s)

include h hix

omit [Scalar K] in
/-- Renumbered objects keep their positions. -/
theorem position?_renumbered {id : ObjectId} (hid : id ∈ ix.ids) :
    (ix.mapIds f).position? (f id) = ix.position? id :=
  Index.position?_mapIds fun _ ha =>
    h.inj (hix.mem_ids_iff.mp ha) (hix.mem_ids_iff.mp hid)

omit [Scalar K] in
/-- In each position stands the renumbered object. -/
theorem objectAt?_renumbered (p : Nat) :
    objectAt? s' (ix.mapIds f) p = (objectAt? s ix p).map (·.mapIds f) := by
  rw [objectAt?, objectAt?, Index.ids_mapIds, List.getElem?_map]
  cases hid : ix.ids[p]? with
  | none => rfl
  | some id => exact h.object (hix.reached id (List.mem_of_getElem? hid))

omit [Scalar K] in
/-- Representatives are found by position, so a renumbered object has the renumbered one. -/
theorem canonical_renumbered (d : DisjointSets) {id : ObjectId} (hid : id ∈ ix.ids) :
    canonical (ix.mapIds f) d (f id) = f (canonical ix d id) := by
  rw [canonical, canonical, position?_renumbered h hix hid]
  cases ix.position? id with
  | none => rfl
  | some p =>
    simp only [Index.ids_mapIds, List.getD_eq_getElem?_getD, List.getElem?_map]
    cases ix.ids[d.root p]? <;> rfl

omit h hix [Scalar K] in
/-- The representative of an indexed object is indexed. -/
theorem canonical_mem (d : DisjointSets) {id : ObjectId} (hid : id ∈ ix.ids) :
    canonical ix d id ∈ ix.ids := by
  rw [canonical]
  cases ix.position? id with
  | none => exact hid
  | some p =>
    simp only [List.getD_eq_getElem?_getD]
    cases hroot : ix.ids[d.root p]? with
    | none => exact hid
    | some a => exact List.mem_of_getElem? hroot

/-- The key of a renumbered object is the key under other ids. -/
theorem keyAt?_renumbered (pass : Pass) (d : DisjointSets) (p : Nat) :
    keyAt? s' (ix.mapIds f) settings pass d p =
      (keyAt? s ix settings pass d p).map fun e => (e.1, e.2.mapIds f) := by
  rw [keyAt?_eq, keyAt?_eq, objectAt?_renumbered h hix]
  cases ho : objectAt? s ix p with
  | none => rfl
  | some o =>
    have hkey : (o.mapIds f).mergeKey? (canonical (ix.mapIds f) d) =
        (o.mergeKey? (canonical ix d)).map (·.mapIds f) := by
      rw [Object.mergeKey?_mapIds, ← Object.mergeKey?_comp]
      exact Object.mergeKey?_congr fun t ht =>
        canonical_renumbered h hix d (mem_ids_of_mem_targets hix ho ht)
    simp only [Option.map_some, Option.bind_some, Object.kind_mapIds, Object.isEligible_mapIds,
      hkey]
    split
    · cases o.mergeKey? (canonical ix d) <;> rfl
    · rfl

omit h in
/-- What takes ids back takes keys back. -/
theorem keyAt?_back {g : ObjectId → ObjectId} (hback : ∀ a ∈ ix.ids, g (f a) = a) {pass : Pass}
    {d : DisjointSets} {p : Nat} {kind : Kind} {k : MergeKey}
    (hk : keyAt? s ix settings pass d p = some (kind, k)) : (k.mapIds f).mapIds g = k := by
  rw [keyAt?_eq] at hk
  obtain ⟨o, ho, hk⟩ := Option.bind_eq_some_iff.mp hk
  obtain ⟨-, hk⟩ := Option.ite_none_right_eq_some.mp hk
  obtain ⟨k', hkey, heq⟩ := Option.map_eq_some_iff.mp hk
  cases heq
  have hsame : o.mergeKey? (g ∘ f ∘ canonical ix d) = o.mergeKey? (canonical ix d) :=
    Object.mergeKey?_congr fun t ht =>
      hback _ (canonical_mem d (mem_ids_of_mem_targets hix ho ht))
  rw [Object.mergeKey?_comp, Object.mergeKey?_comp, hkey] at hsame
  exact Option.some.inj hsame

end

/-! ## Classes -/

/-- A key under other ids is found where the key is found. -/
theorem lookup_mapIds {g : ObjectId → ObjectId} {first : List (MergeKey × Nat)} {k : MergeKey}
    (hk : (k.mapIds f).mapIds g = k) (hfirst : ∀ e ∈ first, (e.1.mapIds f).mapIds g = e.1) :
    (first.map fun e => (e.1.mapIds f, e.2)).lookup (k.mapIds f) = first.lookup k := by
  induction first with
  | nil => rfl
  | cons e first ih =>
    obtain ⟨he, hfirst⟩ := List.forall_mem_cons.mp hfirst
    have hsame : (k.mapIds f == e.1.mapIds f) = (k == e.1) := by
      rw [Bool.eq_iff_iff, beq_iff_eq, beq_iff_eq]
      refine ⟨fun heq => ?_, congrArg _⟩
      rw [← hk, heq, he]
    rw [List.map_cons, List.lookup_cons, List.lookup_cons, ih hfirst, hsame]

section

variable (h : s.Renumbered f s') (hix : ix.Sound s)

include h hix

/-- A pass joins the same positions. -/
theorem runPositions_renumbered {g : ObjectId → ObjectId} (hback : ∀ a ∈ ix.ids, g (f a) = a)
    (pass : Pass) (order : List Nat) (first : List (MergeKey × Nat)) (state : State)
    (hfirst : ∀ e ∈ first, (e.1.mapIds f).mapIds g = e.1) :
    runPositions s' (ix.mapIds f) settings pass order
      (first.map fun e => (e.1.mapIds f, e.2)) state =
      runPositions s ix settings pass order first state := by
  induction order generalizing first state with
  | nil => rfl
  | cons p rest ih =>
    rw [runPositions, runPositions, keyAt?_renumbered h hix]
    cases hkey : keyAt? s ix settings pass state.sets p with
    | none => exact ih first state hfirst
    | some e =>
      obtain ⟨kind, k⟩ := e
      have hk := keyAt?_back hix hback hkey
      simp only [Option.map_some, lookup_mapIds hk hfirst]
      cases first.lookup k with
      | none => exact ih ((k, p) :: first) state (List.forall_mem_cons.mpr ⟨hk, hfirst⟩)
      | some q => exact ih first _ hfirst

/-- Turns go by positions and compare keys, and ids show in neither. -/
theorem runTurn_renumbered : runTurn s' (ix.mapIds f) settings = runTurn s ix settings := by
  -- there is a way back for the ids of objects
  obtain ⟨g, hback⟩ : ∃ g : ObjectId → ObjectId, ∀ a ∈ ix.ids, g (f a) = a := by
    have hinj : Set.InjOn f {a | a ∈ ix.ids} := fun a ha b hb =>
      h.inj (hix.mem_ids_iff.mp ha) (hix.mem_ids_iff.mp hb)
    have : Nonempty ObjectId := ⟨s.root⟩
    exact ⟨Function.invFunOn f {a | a ∈ ix.ids}, fun a ha => hinj.leftInvOn_invFunOn ha⟩
  funext state turn
  exact runPositions_renumbered h hix hback turn.pass turn.order [] state (by simp)

/-- All rounds go alike, by recursion on the number that is left. -/
theorem runRounds_renumbered (turns : List Turn) (done : Nat) (state : State) :
    runRounds s' (ix.mapIds f) settings turns done state =
      runRounds s ix settings turns done state := by
  have hround : runRound s' (ix.mapIds f) settings turns = runRound s ix settings turns := by
    funext state
    rw [runRound, runRound, runTurn_renumbered h hix]
  fun_induction runRounds s ix settings turns done state with
  | case1 done state next hlt ih =>
    rw [runRounds, hround]
    simp only [next, hlt, if_true]
    exact ih
  | case2 done state next hge =>
    rw [runRounds, hround]
    simp only [next, hge, if_false]

omit [Scalar K] h hix in
/-- The schedule is made of positions. -/
theorem schedule_mapIds (ix : Index) (f : ObjectId → ObjectId) :
    schedule (ix.mapIds f) = schedule ix := by
  simp [schedule, Pass.order, Index.mapIds, Index.size]

/-- **The same positions are merged.** -/
theorem ofIndex_renumbered :
    Classes.ofIndex s' (ix.mapIds f) settings = Classes.ofIndex s ix settings := by
  simp only [Classes.ofIndex, Classes.inTurns, schedule_mapIds, runRounds_renumbered h hix,
    Index.size_mapIds]

end

/-! ## Copies -/

section

variable (h : s.Renumbered f s') (hix : ix.Sound s)

include h hix

omit [Scalar K] in
/-- The position of an object that has one is its position under the new id. -/
theorem position?_renumbered_of_some {a : ObjectId} {p : Nat} (hpos : ix.position? a = some p) :
    (ix.mapIds f).position? (f a) = some p := by
  rw [position?_renumbered h hix (List.mem_of_getElem? (Index.position?_eq_some hpos)), hpos]

omit [Scalar K] in
/-- Objects keep their positions, so a class is represented by the same position. -/
theorem parallel_renumbered (c : Classes) : Parallel f id settings s ix c s' (ix.mapIds f) c where
  sound := hix
  root := h.root
  class_eq hpos := ⟨_, position?_renumbered_of_some h hix hpos, rfl⟩
  object _ := objectAt?_renumbered h hix _
  inj _ _ heq := heq
  text _ _ _ _ := Iff.rfl

end

end Merge

/-! ## The optimizer and the code -/

namespace Scene

/-- **Optimising gives the very same scene under either numbering**, or fails under both. -/
theorem Renumbered.optimize_agree {f : ObjectId → ObjectId} {s s' : Scene K}
    (h : s.Renumbered f s') (settings : OptimizerSettings) :
    Agree Eq (s.optimize settings) (s'.optimize settings) := by
  refine Agree.bind (Index.build_agree h) fun ix ix' hindexed => ?_
  obtain ⟨hix, rfl⟩ := hindexed
  rw [Merge.ofIndex_renumbered h hix, Index.size_mapIds]
  refine Agree.bind (Merge.parallel_renumbered h hix _).copy_agree fun copied copied' hcopied => ?_
  subst hcopied
  exact Agree.refl (fun _ => rfl) _

/-- **Ids and garbage make no difference** to the optimizer and to the code it leads to. -/
theorem renumbered_runs_agree {f : ObjectId → ObjectId} {s s' : Scene Float32}
    (h : s.Renumbered f s') :
    (∀ settings, Agree Eq (s.optimize settings) (s'.optimize settings)) ∧
    ∀ optimizer settings lang,
      Agree Eq (s.generate optimizer settings lang) (s'.generate optimizer settings lang) := by
  refine ⟨h.optimize_agree, fun optimizer settings lang => ?_⟩
  refine Agree.bind (h.optimize_agree optimizer) fun out out' hout => ?_
  subst hout
  exact Agree.refl (fun _ => rfl) _

/-- The objects of `tableau` from the last to the first, after one that leads to itself and to
nowhere. -/
def upset : Scene Float32 where
  root := ⟨6⟩
  objects := #[
    { content := .containerVisual {} [⟨0⟩, ⟨9⟩] },
    { content := .animationController true },
    { content := .expressionAnimation { expression := "fade" } },
    { content := .spriteShape {} },
    { content := .shapeVisual {} [⟨3⟩] },
    { content := .shapeVisual {} [⟨3⟩] },
    { content := .containerVisual {} [⟨5⟩, ⟨4⟩]
      attached := { animators := [⟨"Opacity", ⟨2⟩, some ⟨1⟩⟩] } }]

/-- The ids of `tableau`. -/
def tableauIds : List ObjectId := [⟨0⟩, ⟨1⟩, ⟨2⟩, ⟨3⟩, ⟨4⟩, ⟨5⟩]

theorem mem_tableauIds {a : ObjectId} (h : tableau.Reaches tableau.root a) : a ∈ tableauIds := by
  have hclosed : ∀ b ∈ tableauIds, ∀ c ∈ tableau.targetsOf b, c ∈ tableauIds := by decide
  induction h with
  | refl => decide
  | tail _ hbc ih => exact hclosed _ ih _ hbc

/-- Counting the ids of the tableau down renumbers it. -/
theorem tableau_renumbered : tableau.Renumbered (fun a => ⟨6 - a.word⟩) upset := by
  refine ⟨rfl, fun {a} ha => ?_, fun {a b} ha hb => ?_⟩
  · have hmem := mem_tableauIds ha
    rw [tableauIds] at hmem
    fin_cases hmem <;> rfl
  · have hdistinct : ∀ a ∈ tableauIds, ∀ b ∈ tableauIds,
        (⟨6 - a.word⟩ : ObjectId) = ⟨6 - b.word⟩ → a = b := by decide
    exact hdistinct a (mem_tableauIds (reaches_of_mem_reachable ha)) b
      (mem_tableauIds (reaches_of_mem_reachable hb))

/-- There is something to optimise in the tableau. -/
theorem tableau_optimize : ∃ out, tableau.optimize {} = .ok out := by
  obtain ⟨ix, hmakes⟩ := Instantiator.makes_of_ofScene tableau_ofScene
  rcases Merge.copy_cases {} hmakes.index with ⟨copied, hcopy⟩ | ⟨a, ha, o, name, ho, hname, -⟩
  · have hanimations : Merge.RunsAnimations tableau := by
      intro a ha o ho animator hanimator
      have hmem := mem_tableauIds (reaches_of_mem_reachable ha)
      rw [tableauIds] at hmem
      fin_cases hmem <;> cases ho <;> fin_cases hanimator
      exact ⟨_, rfl, rfl⟩
    obtain ⟨reduction, scene, hreduce⟩ := Merge.reduce_copy_succeeds hmakes.index hcopy hanimations
    exact ⟨_, optimize_of_copy hmakes.index hcopy (by simp) fun _ => hreduce⟩
  · have hmem := mem_tableauIds (hmakes.sound.reached a ha)
    rw [tableauIds] at hmem
    fin_cases hmem <;> cases ho <;> cases hname

/-- The tableau and the renumbered one give one scene and one code. -/
theorem tableau_runs_agree : tableau.Renumbered (fun a => ⟨6 - a.word⟩) upset ∧
    (∃ out, tableau.optimize {} = .ok out ∧ upset.optimize {} = .ok out) ∧
    ∀ optimizer settings lang,
      Agree Eq (tableau.generate optimizer settings lang)
        (upset.generate optimizer settings lang) := by
  obtain ⟨hoptimize, hgenerate⟩ := renumbered_runs_agree tableau_renumbered
  obtain ⟨out, hout⟩ := tableau_optimize
  exact ⟨tableau_renumbered, ⟨out, hout, (Agree.eq_iff.mp (hoptimize {}) out).mp hout⟩, hgenerate⟩

end Scene
end Diorama
