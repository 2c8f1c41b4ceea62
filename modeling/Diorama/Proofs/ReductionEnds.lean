/-
  A reduction comes to an end.

  The passes are sums over finite lists.  What has to be shown is that the two loops around them
  stop, and that where the code counts the rounds to be safe, the bound is never met.
  `Editing.Rounds` is a loop without a bound:  it makes rounds until one counts nothing or fails,
  and it relates a scene to a result only if these are finitely many.  `Run` is the whole reduction
  with such loops.

  Every round of dropping that counts something makes a list shorter, and every round of pushing
  down and splicing that counts something costs energy.

  An edit changes objects that are drawn, and it fails only if one of them is frozen (`Refused`).
  So a reduction fails only there, and where at most animations are frozen it succeeds (`Workable`).
-/
import Mathlib
import Diorama.Proofs.ReductionEnergy
import Diorama.Proofs.ReductionFrame
import Diorama.Proofs.ReductionSettles

namespace Diorama

variable {K : Type}

/-! ## Loops -/

namespace Reduction

/-- Counts add up in any grouping. -/
protected theorem add_assoc (a b c : Reduction) : a + b + c = a + (b + c) := by
  show Reduction.mk _ _ _ _ _ = Reduction.mk _ _ _ _ _
  simp only [Reduction.mk.injEq]
  exact ⟨Nat.add_assoc .., Nat.add_assoc .., Nat.add_assoc .., Nat.add_assoc .., Nat.add_assoc ..⟩

protected theorem nothing_add (a : Reduction) : {} + a = a := by
  show Reduction.mk _ _ _ _ _ = a
  simp only [Nat.zero_add]

/-- What a run comes to if some edits were counted before it. -/
def counted (before : Reduction) :
    EStateM.Result SceneError (Scene K) Reduction → EStateM.Result SceneError (Scene K) Reduction
  | .ok done s => .ok (before + done) s
  | .error e s => .error e s

/-- Two counts before a result are one count before it. -/
theorem counted_add (a b : Reduction) (r : EStateM.Result SceneError (Scene K) Reduction) :
    counted (a + b) r = counted a (counted b r) := by
  cases r with
  | ok done s => exact congrArg (EStateM.Result.ok · s) (Reduction.add_assoc a b done)
  | error e s => rfl

theorem counted_nothing (r : EStateM.Result SceneError (Scene K) Reduction) : counted {} r = r := by
  cases r with
  | ok done s => exact congrArg (EStateM.Result.ok · s) (Reduction.nothing_add done)
  | error e s => rfl

/-- Counting does not touch errors. -/
theorem eq_error_of_counted {before : Reduction} {r : EStateM.Result SceneError (Scene K) Reduction}
    {e : SceneError} {t : Scene K} (h : counted before r = .error e t) : r = .error e t := by
  cases r with
  | ok => cases h
  | error => exact h

/-- To count afterwards is to add to the result. -/
theorem bind_add_run (x : Editing K Reduction) (before : Reduction) (s : Scene K) :
    (x >>= fun done => pure (before + done)) s = counted before (x s) := by
  cases hrun : x s with
  | ok done t =>
    rw [Editing.bind_run_of_ok hrun]
    rfl
  | error e t =>
    rw [Editing.bind_run_of_error hrun]
    rfl

end Reduction

namespace Editing

/-- What rounds come to that are made until one of them counts nothing or fails, and how many they
are. -/
inductive Rounds (round : Editing K Reduction) :
    Nat → Scene K → EStateM.Result SceneError (Scene K) Reduction → Prop where
  | fails {s t : Scene K} {e : SceneError} (hround : round s = .error e t) :
      Rounds round 1 s (.error e t)
  | stops {s t : Scene K} {done : Reduction} (hround : round s = .ok done t)
      (hnone : done.total = 0) : Rounds round 1 s (.ok {} t)
  | goesOn {n : Nat} {s t : Scene K} {done : Reduction}
      {r : EStateM.Result SceneError (Scene K) Reduction} (hround : round s = .ok done t)
      (hsome : done.total ≠ 0) (hrest : Rounds round n t r) :
      Rounds round (n + 1) s (Reduction.counted done r)

/-- A loop fails as its rounds do. -/
theorem Rounds.failsWith {round : Editing K Reduction} {Q : Scene K → SceneError → Prop}
    (hfails : FailsWith Q round) {n : Nat} {s t : Scene K} {e : SceneError}
    {r : EStateM.Result SceneError (Scene K) Reduction} (h : Rounds round n s r)
    (hr : r = .error e t) :
    Q t e := by
  induction h with
  | fails hround =>
    cases hr
    exact hfails _ _ _ hround
  | stops => cases hr
  | goesOn _ _ _ ih => exact ih (Reduction.eq_error_of_counted hr)

end Editing

/-! ## Refusals -/

namespace Reduction

variable {S : Finset ObjectId} {rank w : ObjectId → Nat} {s s' t : Scene K} {x : ObjectId}
  {o : Object K} {e : SceneError}

/-- The error is that an object is frozen, which is drawn. -/
def Refused (s : Scene K) (e : SceneError) : Prop :=
  ∃ id o, s.get? id = some o ∧ s.isFrozen id = true ∧ o.content.isDrawn = true ∧
    e = .frozen id o.kind

/-- Whether an object is drawn can be told without its place and its list. -/
theorem isDrawn_unplaced (c : Content K) : c.unplaced.isDrawn = c.isDrawn := by
  cases c <;> rfl

/-- A drawn object that may not be changed is frozen. -/
theorem refused_of_changeable (h : s.Rearranged t) (ho : s.get? x = some o)
    (hdrawn : o.content.isDrawn = true) (hfails : t.changeable x = .error e) : Refused t e := by
  obtain ⟨p, hp, hop⟩ := h.object ho
  have hpdrawn : p.content.isDrawn = true := by
    rw [← isDrawn_unplaced, hop.unplaced, isDrawn_unplaced, hdrawn]
  obtain ⟨hfrozen, rfl⟩ := Scene.frozen_of_changeable hp hfails
  exact ⟨x, p, hp, hfrozen, hpdrawn, rfl⟩

/-- A refusal was one from the beginning. -/
theorem Refused.of_rearranged (h : Refused t e) (hframe : s.Rearranged t) : Refused s e := by
  obtain ⟨id, o, ho, hfrozen, hdrawn, rfl⟩ := h
  rw [hframe.isFrozen] at hfrozen
  exact ⟨id, o, (hframe.pinned hfrozen).symm.trans ho, hfrozen, hdrawn, rfl⟩

/-- A step that changes one object. -/
theorem refused_of_counted {step : Editing K Reduction} {f : Object K → Object K} {n : Reduction}
    (hframe : s.Rearranged (step.left s)) (ho : s.get? x = some o)
    (hdrawn : o.content.isDrawn = true)
    (hactive : step s = (do Editing.change x f; return n : Editing K Reduction) s)
    (hrun : step s = .error e t) : Refused t e := by
  rw [Editing.left_of_error hrun] at hframe
  rw [hactive] at hrun
  refine refused_of_changeable hframe ho hdrawn ?_
  exact Editing.FailsWith.bind (.change x f) (fun _ => .pure _) s e t hrun

/-- What holds shapes is drawn. -/
theorem isDrawn_of_shapes? {c : Content K} {shapes : List ObjectId} (h : c.shapes? = some shapes) :
    c.isDrawn = true := by
  cases c with
  | shapeVisual => rfl
  | containerShape => rfl
  | _ => cases h

/-- What holds children is drawn. -/
theorem isDrawn_of_mem_children {c : Content K} (h : x ∈ c.children) : c.isDrawn = true := by
  cases c with
  | containerVisual => rfl
  | shapeVisual => rfl
  | containerShape => rfl
  | _ => cases h

/-- Dropping is refused at a frozen object that holds the dead one. -/
theorem dropDead_refused (dead : List ObjectId) (x : ObjectId) :
    Editing.FailsWith Refused (dropDead dead x : Editing K Reduction) := by
  intro s e t hrun
  rcases dropDead_spec dead x s with ⟨hidle, -⟩ | ⟨o, shapes, n, ho, hshapes, -, -, -, hactive⟩
  · cases hidle.symm.trans hrun
  · exact refused_of_counted (keeps_spares_dropDead dead x s (.refl [] s)).toRearranged ho
      (isDrawn_of_shapes? hshapes) hactive hrun

/-- Splicing is refused at a frozen object that holds the container. -/
theorem spliceObject_refused (read : List ObjectId) (x : ObjectId) :
    Editing.FailsWith Refused (spliceObject read x : Editing K Reduction) := by
  intro s e t hrun
  rcases spliceObject_spec read x s with ⟨hidle, -⟩ | ⟨o, n, ho, hpos, hn, hactive⟩
  · cases hidle.symm.trans hrun
  · obtain ⟨c, hc, -⟩ := List.countP_pos_iff.mp (hn ▸ hpos)
    exact refused_of_counted (keeps_spares_spliceObject read x s (.refl [] s)).toRearranged ho
      (isDrawn_of_mem_children hc) hactive hrun

section

variable [Scalar K]

/-- Folding is refused at a frozen object that has a transform. -/
theorem foldObject_refused (read : List ObjectId) (x : ObjectId) :
    Editing.FailsWith Refused (foldObject read x : Editing K Reduction) := by
  intro s e t hrun
  rcases foldObject_spec read x s with ⟨hidle, -⟩ | ⟨o, content, n, -, ho, -, hfold, hactive⟩
  · cases hidle.symm.trans hrun
  · have hdrawn : o.content.isDrawn = true := by
      have hfolds := folds_of_foldContent? hfold
      generalize o.content = c at hfolds
      cases hfolds <;> rfl
    exact refused_of_counted (keeps_spares_foldObject x s (.refl read s)).toRearranged ho hdrawn
      hactive hrun

omit [Scalar K] in
/-- What can take over a matrix is drawn. -/
theorem isDrawn_of_accepts (h : accepts o = true) : o.content.isDrawn = true := by
  rcases (exists_of_accepts h).2 with ⟨own, cs, hc⟩ | ⟨a, hc, -⟩
  · rw [hc]
    rfl
  · rw [hc]
    rfl

/-- Pushing down is refused at a frozen shape or at a frozen container. -/
theorem pushObject_refused (single : ObjectId → Bool) (x : ObjectId) :
    Editing.FailsWith Refused (pushObject single x : Editing K Reduction) := by
  intro s e t hrun
  have hframe : s.Rearranged (pushObject single x |>.left s) :=
    (keeps_spares_pushObject (by simp) x s (.refl [] s)).toRearranged
  rw [Editing.left_of_error hrun] at hframe
  rcases pushObject_spec single x s with
    ⟨hidle, -⟩ | ⟨o, m, shapes, -, -, ho, hmatrix, hall, hactive⟩
  · cases hidle.symm.trans hrun
  · -- whichever change it is that fails, its object was drawn when the push began
    have hdrawn : ∀ c, c = x ∨ c ∈ shapes → ∃ p, s.get? c = some p ∧ p.content.isDrawn = true := by
      rintro c (rfl | hc)
      · exact ⟨o, ho, by rw [(matrixContainer?_eq_some hmatrix).2]; rfl⟩
      · obtain ⟨p, hp, haccepts⟩ := (hall c hc).2
        exact ⟨p, hp, isDrawn_of_accepts haccepts⟩
    have hchange : ∀ c f, c = x ∨ c ∈ shapes → Editing.FailsWith (K := K)
        (fun t e => ∃ c, (c = x ∨ c ∈ shapes) ∧ t.changeable c = .error e) (Editing.change c f) :=
      fun c f hc s e t hfails => ⟨c, hc, Editing.FailsWith.change c f s e t hfails⟩
    rw [hactive] at hrun
    obtain ⟨c, hc, hfails⟩ := Editing.FailsWith.bind (.forM fun c hc => hchange c _ (.inr hc))
      (fun _ => .bind (hchange x _ (.inl rfl)) fun _ => .pure _) s e t hrun
    obtain ⟨p, hp, hpdrawn⟩ := hdrawn c hc
    exact refused_of_changeable hframe hp hpdrawn hfails

/-- What the steps refuse, the passes refuse. -/
theorem foldTransforms_refused : Editing.FailsWith Refused (foldTransforms : Editing K Reduction) :=
  .get_bind fun _ => .sumOver fun x _ => foldObject_refused _ x

theorem coalesce_refused : Editing.FailsWith Refused (coalesce : Editing K Reduction) := by
  refine .bind (.get_bind fun _ => .sumOver fun x _ => pushObject_refused _ x) fun _ => ?_
  exact .bind (.get_bind fun _ => .sumOver fun x _ => spliceObject_refused _ x) fun _ => .pure _

end

/-! ## Dropping round by round -/

/-- One round of dropping: whatever is dead when it begins. -/
def dropRound : Editing K Reduction := do
  let s ← get
  Editing.sumOver (dropDead (deadContainers s)) s.reachable

/-- A round of dropping looks for the dead containers and drops them. -/
theorem dropRound_refused : Editing.FailsWith Refused (dropRound : Editing K Reduction) :=
  .get_bind fun _ => .sumOver fun x _ => dropDead_refused _ x

/-- **Dropping comes to an end** before all lists are empty. -/
theorem dropDeadFrom_rounds (before : Reduction) (s : Scene K) :
    ∃ n ≤ s.childCount + 1, ∃ r, Editing.Rounds dropRound n s r ∧
      dropDeadFrom before s = counted before r := by
  fun_induction dropDeadFrom before s with
  | case1 before t hnone =>
    have hround : dropRound t = .ok {} t := Editing.sumOver_of_idle fun x hx => by
      rcases dropDead_spec (deadContainers t) x t with
        ⟨hidle, -⟩ | ⟨o, shapes, n, -, -, ⟨c, -, hc⟩, -⟩
      · exact hidle
      · rw [hnone] at hc
        cases hc
    exact ⟨1, Nat.le_add_left 1 _, _, .stops hround rfl, rfl⟩
  | case2 before t _ e next hsum => exact ⟨1, Nat.le_add_left 1 _, _, .fails hsum, rfl⟩
  | case3 before t dropped next hshorter _ hsum ih =>
    obtain ⟨n, hn, r, hrounds, hr⟩ := ih
    have hsome : dropped.total ≠ 0 := fun hnone =>
      absurd ((dropped_none_iff hsum).mpr hnone) (Nat.not_le.mpr hshorter)
    refine ⟨n + 1, by omega, _, .goesOn hsum hsome hrounds, ?_⟩
    rw [hr, counted_add]
  | case4 before t dropped next hlonger _ hsum =>
    have hnone := (dropped_none_iff hsum).mp (Nat.not_lt.mp hlonger)
    exact ⟨1, Nat.le_add_left 1 _, _, .stops hsum hnone, rfl⟩

/-- **Dropping ends after at most one round more than there are children**, since every round but
the last one takes a child away. -/
theorem removeDead_rounds (s : Scene K) :
    ∃ n ≤ s.childCount + 1, Editing.Rounds dropRound n s (removeDead s) := by
  obtain ⟨n, hn, r, hrounds, hr⟩ := dropDeadFrom_rounds {} s
  have hresult : removeDead s = r := hr.trans (counted_nothing r)
  exact ⟨n, hn, hresult ▸ hrounds⟩

/-! ## Pushing down and splicing round by round -/

variable [Scalar K]

/-- **Rounds come to an end** before the energy is used up. -/
theorem coalesceFor_rounds {limit : Nat} (h : Weighted S rank w s) (hlimit : energy S w s < limit) :
    ∃ n ≤ energy S w s + 1, Editing.Rounds coalesce n s (coalesceFor limit s) := by
  induction limit generalizing s with
  | zero => omega
  | succ limit ih =>
    cases hround : coalesce s with
    | error e t =>
      rw [coalesceFor, Editing.bind_run_of_error hround]
      exact ⟨1, Nat.le_add_left 1 _, .fails hround⟩
    | ok round t =>
      obtain ⟨ht, hpaid⟩ := coalesce_costs s t round h hround
      rw [coalesceFor, Editing.bind_run_of_ok hround]
      by_cases hidle : round.total = 0
      · rw [if_pos hidle]
        exact ⟨1, Nat.le_add_left 1 _, .stops hround hidle⟩
      · rw [if_neg hidle, bind_add_run]
        obtain ⟨n, hn, hrounds⟩ := ih ht (by omega)
        exact ⟨n + 1, by omega, .goesOn hround hidle hrounds⟩

/-- The limit of the rounds is never met. -/
theorem coalesceFor_roundLimit (h : s.Ranked (· ∈ S) rank) (hroot : s.root ∈ S) :
    ∃ n ≤ roundLimit s, Editing.Rounds coalesce n s (coalesceFor (roundLimit s) s) := by
  have hweighted := weighted_powerWeight h hroot
  have hlimit := energy_lt_roundLimit hweighted
  obtain ⟨n, hn, hrounds⟩ := coalesceFor_rounds hweighted hlimit
  exact ⟨n, by omega, hrounds⟩

/-! ## The whole reduction -/

/-- What a reduction comes to whose loops have no limit, after `n` rounds of dropping and `k` rounds
of pushing down and splicing. -/
inductive Run : Nat → Nat → Scene K → EStateM.Result SceneError (Scene K) Reduction → Prop where
  | dropFails {n : Nat} {s t : Scene K} {e : SceneError}
      (hdrop : Editing.Rounds dropRound n s (.error e t)) : Run n 0 s (.error e t)
  | foldFails {n : Nat} {s t u : Scene K} {e : SceneError} {dropped : Reduction}
      (hdrop : Editing.Rounds dropRound n s (.ok dropped t))
      (hfold : foldTransforms t = .error e u) :
      Run n 0 s (.error e u)
  | coalesces {n k : Nat} {s t u : Scene K} {dropped folded : Reduction}
      {r : EStateM.Result SceneError (Scene K) Reduction}
      (hdrop : Editing.Rounds dropRound n s (.ok dropped t))
      (hfold : foldTransforms t = .ok folded u)
      (hcoalesce : Editing.Rounds coalesce k u r) : Run n k s (counted (dropped + folded) r)

/-- However many rounds a run has made, it fails by being refused. -/
theorem Run.refused {n k : Nat} {r : EStateM.Result SceneError (Scene K) Reduction}
    (h : Run n k s r) (hr : r = .error e t) : Refused t e := by
  cases h with
  | dropFails hdrop => exact hdrop.failsWith dropRound_refused hr
  | foldFails _ hfold =>
    cases hr
    exact foldTransforms_refused _ _ _ hfold
  | coalesces _ _ hcoalesce => exact hcoalesce.failsWith coalesce_refused (eq_error_of_counted hr)

omit [Scalar K] in
/-- Dropping adds no children. -/
theorem childCount_removeDead {done : Reduction} (hrun : removeDead s = .ok done s') :
    s'.childCount ≤ s.childCount := by
  refine (dropDeadFrom_cases (P := fun t => t.childCount ≤ s.childCount) (fun t t' n ht hsum => ?_)
    (Nat.le_refl _) hrun).1
  have hcost :=
    Editing.Costs.sumOver (fun x _ => dropDead_costs (deadContainers t) x) t t' n trivial hsum
  omega

/-- Folding leaves the children alone. -/
theorem childCount_foldTransforms {done : Reduction} (hrun : foldTransforms s = .ok done s') :
    s'.childCount = s.childCount := by
  refine Editing.Preserves.sumOver (P := fun t => t.childCount = s.childCount) (fun x _ => ?_) s s'
    done rfl hrun
  intro t t' n ht hstep
  rcases foldObject_spec s.readByExpressions x t with
    ⟨hidle, -⟩ | ⟨o, content, m, -, ho, -, hfold, hactive⟩
  · rw [hidle] at hstep
    cases hstep
    exact ht
  · rw [hactive] at hstep
    obtain ⟨⟨⟩, u, hchange, hdone⟩ := Editing.exists_of_bind hstep
    cases hdone
    obtain ⟨p, hp, -, rfl⟩ := Editing.eq_set_of_change hchange
    obtain rfl := Option.some.inj (ho.symm.trans hp)
    have hlength := childCount_set ho { o with content }
    have hsame : content.children = o.content.children :=
      (restyled_of_folds (folds_of_foldContent? hfold)).children
    rw [hsame] at hlength
    omega

omit [Scalar K] in
/-- The limit grows with the number of children. -/
theorem roundLimit_le (hcount : s'.childCount ≤ s.childCount) (hsize : s'.size = s.size) :
    roundLimit s' ≤ roundLimit s := by
  unfold roundLimit
  rw [hsize]
  exact Nat.pow_le_pow_left (Nat.add_le_add_right (Nat.pow_le_pow_left (by omega) _) 2) 3

/-- The limit of the rounds is never met: a reduction is one whose loops have no limit. -/
theorem reduce_run (h : s.Ranked (· ∈ S) rank) (hroot : s.root ∈ S) :
    ∃ n ≤ s.childCount + 1, ∃ k ≤ roundLimit s, Run n k s (reduce s) := by
  obtain ⟨n, hn, hrounds⟩ := removeDead_rounds s
  refine ⟨n, hn, ?_⟩
  cases hdrop : removeDead s with
  | error e t =>
    rw [hdrop] at hrounds
    rw [reduce, Editing.bind_run_of_error hdrop]
    exact ⟨0, Nat.zero_le _, .dropFails hrounds⟩
  | ok dropped t =>
    rw [hdrop] at hrounds
    rw [reduce, Editing.bind_run_of_ok hdrop]
    obtain ⟨ht, htdead⟩ := removeDead_settles (.start h hroot) hdrop
    cases hfold : foldTransforms t with
    | error e u =>
      rw [Editing.bind_run_of_error hfold]
      exact ⟨0, Nat.zero_le _, .foldFails hrounds hfold⟩
    | ok folded u =>
      rw [Editing.bind_run_of_ok hfold, Editing.get_bind_run, bind_add_run]
      obtain ⟨hu, -⟩ := foldTransforms_settles ht htdead hfold
      obtain ⟨k, hk, hcoalesce⟩ := coalesceFor_roundLimit hu.ranked hu.root
      obtain ⟨g, he, -⟩ := hu.edited
      have hcount : u.childCount ≤ s.childCount :=
        (childCount_foldTransforms hfold).trans_le (childCount_removeDead hdrop)
      exact ⟨k, hk.trans (roundLimit_le hcount he.size), .coalesces hrounds hfold hcoalesce⟩

/-- **A reduction fails at frozen objects only.** -/
theorem reduce_refused (h : s.Ranked (· ∈ S) rank) (hroot : s.root ∈ S)
    (hrun : reduce s = .error e t) : Refused s e := by
  have hframe := (keeps_spared_reduce s (.refl _ s)).toRearranged
  rw [Editing.left_of_error hrun] at hframe
  obtain ⟨n, -, k, -, hends⟩ := reduce_run h hroot
  exact (hends.refused hrun).of_rearranged hframe

/-- A ranked scene in which at most animations are frozen. -/
structure Workable (A : ObjectId → Prop) (rank : ObjectId → Nat) (s : Scene K) : Prop where
  ranked : s.Ranked A rank
  root : A s.root
  free {id : ObjectId} {o : Object K} :
    s.get? id = some o → o.content.isAnimation = false → s.isFrozen id = false

/-- **A reduction succeeds** on every ranked scene in which at most animations are frozen. -/
theorem reduce_succeeds (h : Workable (· ∈ S) rank s) : ∃ done s', reduce s = .ok done s' := by
  cases hrun : reduce s with
  | ok done s' => exact ⟨done, s', rfl⟩
  | error e t =>
    obtain ⟨id, o, ho, hfrozen, hdrawn, -⟩ := reduce_refused h.ranked h.root hrun
    have hstill : o.content.isAnimation = false := by
      cases hc : o.content with
      | keyFrameAnimation => simp [hc, Content.isDrawn] at hdrawn
      | expressionAnimation => simp [hc, Content.isDrawn] at hdrawn
      | _ => rfl
    rw [h.free ho hstill] at hfrozen
    cases hfrozen

/-- **A reduction comes to an end.**  Of every scene that is indexed, whatever is frozen in it and
whatever its scalars are, a reduction comes to what it would come to if its loops had no limit:
dropping makes at most one round for each entry of a list and a last one, and pushing down and
splicing make no more rounds than the limit.  It fails only at objects that were frozen and are
drawn. -/
theorem reduce_ends {ix : Index} (hix : Index.build s = .ok ix) :
    (∃ n ≤ s.childCount + 1, ∃ k ≤ roundLimit s, Run n k s (reduce s)) ∧
      ∀ e t, reduce s = .error e t → Refused s e := by
  have hsound := Index.sound_of_build hix
  have hset : (· ∈ ix.ids.toFinset) = (· ∈ ix.ids) := funext fun y => propext List.mem_toFinset
  have hranked : s.Ranked (· ∈ ix.ids.toFinset) ix.rank := hset ▸ hsound.ranked
  have hroot : s.root ∈ ix.ids.toFinset := List.mem_toFinset.mpr hsound.root_mem
  exact ⟨reduce_run hranked hroot, fun _ _ hrun => reduce_refused hranked hroot hrun⟩

/-- The specimen with a frozen sprite: its reduction ends, and it ends in a refusal. -/
theorem specimenPinned_ends :
    Index.build specimenPinned = .ok specimenIndex ∧
    reduce specimenPinned = .error (.frozen ⟨3⟩ .spriteShape) specimenStopped ∧
    (∃ n ≤ specimenPinned.childCount + 1, ∃ k ≤ roundLimit specimenPinned,
      Run n k specimenPinned (reduce specimenPinned)) ∧
    Refused specimenPinned (.frozen ⟨3⟩ .spriteShape) := by
  have hix : Index.build specimenPinned = .ok specimenIndex := by cbv
  obtain ⟨hrun, hrefused⟩ := reduce_ends hix
  exact ⟨hix, specimenPinned_reduce, hrun, hrefused _ _ specimenPinned_reduce⟩

end Reduction
end Diorama
