/-
  Scenes with nothing left to reduce.

  `Settled` says of a scene alone that no edit applies to it, in one clause for each kind of edit:
  no list of shapes has a container without shapes, every transform that may be folded is a matrix,
  no matrix can be pushed down, and no container can be spliced.

  Nothing happens to such a scene (`reduce_of_settled`).  The other way round, a pass that counts
  nothing has done nothing, and says the clause of its edit (`Editing.idle_of_sumOver`).
-/
import Diorama.Proofs.ReductionSteps

namespace Diorama

variable {K : Type}

/-! ## Idle passes -/

namespace Editing

variable {s s' : Scene K} {step : ObjectId → Editing K Reduction} {ids : List ObjectId}
  {done : Reduction}

/-- A pass of steps that have nothing to do has nothing to do. -/
theorem sumOver_of_idle (h : ∀ x ∈ ids, step x s = .ok {} s) : sumOver step ids s = .ok {} s := by
  induction ids with
  | nil => rfl
  | cons x ids ih =>
    have hrest := ih fun c hc => h c (List.mem_cons_of_mem _ hc)
    rw [sumOver, bind_run_of_ok (h x List.mem_cons_self), bind_run_of_ok hrest]
    rfl

/-- A pass that counts nothing leaves the scene as it is, and so did every step. -/
theorem idle_of_sumOver {P : ObjectId → Prop}
    (hstep : ∀ x ∈ ids, ∀ n t, step x s = .ok n t → n.total = 0 → t = s ∧ P x)
    (hrun : sumOver step ids s = .ok done s') (hnone : done.total = 0) :
    s' = s ∧ ∀ x ∈ ids, P x := by
  induction ids generalizing done with
  | nil =>
    cases hrun
    exact ⟨rfl, by simp⟩
  | cons x ids ih =>
    obtain ⟨first, t, hfirst, hrest⟩ := exists_of_bind hrun
    obtain ⟨others, u, hothers, hdone⟩ := exists_of_bind hrest
    cases hdone
    rw [Reduction.total_add] at hnone
    obtain ⟨rfl, hx⟩ := hstep x List.mem_cons_self first t hfirst (by omega)
    obtain ⟨hs', hall⟩ := ih (fun y hy => hstep y (List.mem_cons_of_mem _ hy)) hothers (by omega)
    exact ⟨hs', List.forall_mem_cons.mpr ⟨hx, hall⟩⟩

end Editing

/-! ## Settled scenes -/

/-- An expression refers to what it reads. -/
theorem Object.mem_targets_of_mem_read {o : Object K} {t : ObjectId} (h : t ∈ o.content.read) :
    t ∈ o.targets := by
  rw [Object.targets, Object.references, List.map_append]
  refine List.mem_append_left _ ?_
  cases hc : o.content with
  | expressionAnimation a =>
    rw [hc] at h
    rw [Content.references, Reference.map_target_many]
    exact h
  | _ =>
    rw [hc] at h
    cases h

namespace Reduction

variable {s s' : Scene K} {x : ObjectId} {done : Reduction}

/-- No list of shapes has a container without shapes. -/
def NoDead (s : Scene K) : Prop :=
  ∀ x ∈ s.reachable, ∀ o shapes, s.get? x = some o → o.content.shapes? = some shapes →
    ∀ c ∈ shapes, ∀ p, s.get? c = some p → isDead p = false

/-- What expressions read is read by some reachable expression. -/
theorem mem_readByExpressions {y : ObjectId} : y ∈ s.readByExpressions ↔
    ∃ a ∈ s.reachable, ∃ p, s.get? a = some p ∧ y ∈ p.content.read := by
  simp only [Scene.readByExpressions, List.mem_flatMap]
  refine exists_congr fun a => and_congr_right fun _ => ?_
  cases s.get? a with
  | none => simp
  | some p => simp

/-- Nothing in the list of the object can be spliced. -/
def SpliceIdle (s : Scene K) (read : List ObjectId) (x : ObjectId) : Prop :=
  ∀ o, s.get? x = some o → ∀ c ∈ o.content.children,
    replacement? s read o.content.shapes?.isSome c = none

/-- Whether one slot refers to an object and no expression reads it. -/
def isSingle (s : Scene K) (id : ObjectId) : Bool :=
  s.slotTargets.count id == 1 && !s.readByExpressions.contains id

/-- The object is no container whose matrix can be pushed down. -/
def PushIdle (s : Scene K) (single : ObjectId → Bool) (x : ObjectId) : Prop :=
  x ≠ s.root → single x = true → ∀ o m shapes, s.get? x = some o →
    matrixContainer? o = some (m, shapes) →
    ∃ c ∈ shapes, ¬(single c = true ∧ ∃ p, s.get? c = some p ∧ accepts p = true)

/-- The transform of the object is a matrix at most, unless something drives or reads it. -/
def FoldIdle [Scalar K] (s : Scene K) (read : List ObjectId) (x : ObjectId) : Prop :=
  x ∉ read → ∀ o, s.get? x = some o → o.attached.animatesAny transformProperties = false →
    foldContent? o.content = none

/-- No edit applies to the scene. -/
structure Settled [Scalar K] (s : Scene K) : Prop where
  noDead : NoDead s
  folded : ∀ x ∈ s.reachable, FoldIdle s s.readByExpressions x
  pushed : ∀ x ∈ s.reachable, PushIdle s (isSingle s) x
  spliced : ∀ x ∈ s.reachable, SpliceIdle s s.readByExpressions x

/-! ## Nothing happens to them -/

/-- Where nothing is dead, nothing is dropped. -/
theorem dropDead_of_noDead (h : NoDead s) (hx : x ∈ s.reachable) :
    dropDead (deadContainers s) x s = .ok {} s := by
  rcases dropDead_spec (deadContainers s) x s with
    ⟨hidle, -⟩ | ⟨o, shapes, n, ho, hshapes, ⟨c, hc, hdead⟩, -⟩
  · exact hidle
  · obtain ⟨p, hp, hempty⟩ := allDead_deadContainers s c hdead
    rw [h x hx o shapes ho hshapes c hc p hp] at hempty
    cases hempty

/-- Without dead containers the first pass ends at once. -/
theorem removeDead_of_noDead (h : NoDead s) : removeDead s = .ok {} s := by
  have hround := Editing.sumOver_of_idle fun x hx => dropDead_of_noDead h hx
  rw [removeDead, dropDeadFrom]
  split
  · rfl
  · simp [hround]

/-- A container is left alone if nothing in its list can be spliced. -/
theorem spliceObject_of_idle {read : List ObjectId} (h : SpliceIdle s read x) :
    spliceObject read x s = .ok {} s := by
  rcases spliceObject_spec read x s with ⟨hidle, -⟩ | ⟨o, n, ho, hpos, hn, -⟩
  · exact hidle
  · have hnone : n = 0 := by
      rw [hn, List.countP_eq_zero]
      intro c hc
      simp [h o ho c hc]
    omega

variable [Scalar K]

/-- An object is left alone if it does not fold. -/
theorem foldObject_of_idle {read : List ObjectId} (h : FoldIdle s read x) :
    foldObject read x s = .ok {} s := by
  rcases foldObject_spec read x s with ⟨hidle, -⟩ | ⟨o, content, n, hread, ho, hstill, hfold, -⟩
  · exact hidle
  · rw [h hread o ho hstill] at hfold
    cases hfold

/-- A container is left alone if its matrix cannot be pushed down. -/
theorem pushObject_of_idle {single : ObjectId → Bool} (h : PushIdle s single x) :
    pushObject single x s = .ok {} s := by
  rcases pushObject_spec single x s with
    ⟨hidle, -⟩ | ⟨o, m, shapes, hroot, hsingle, ho, hmatrix, hall, -⟩
  · exact hidle
  · obtain ⟨c, hc, hrefused⟩ := h hroot hsingle o m shapes ho hmatrix
    exact absurd (hall c hc) hrefused

/-- In a settled scene every pass is idle, one after the other. -/
theorem foldTransforms_of_settled (h : Settled s) : foldTransforms s = .ok {} s :=
  Editing.sumOver_of_idle fun x hx => foldObject_of_idle (h.folded x hx)

theorem pushDown_of_settled (h : Settled s) : pushDown s = .ok {} s :=
  Editing.sumOver_of_idle fun x hx => pushObject_of_idle (h.pushed x hx)

theorem splice_of_settled (h : Settled s) : splice s = .ok {} s :=
  Editing.sumOver_of_idle fun x hx => spliceObject_of_idle (h.spliced x hx)

/-- A round in a settled scene changes nothing. -/
theorem coalesce_of_settled (h : Settled s) : coalesce s = .ok {} s := by
  rw [coalesce, Editing.bind_run_of_ok (pushDown_of_settled h),
    Editing.bind_run_of_ok (splice_of_settled h)]
  rfl

/-- **Nothing happens to a settled scene.** -/
theorem reduce_of_settled (h : Settled s) : reduce s = .ok {} s := by
  -- there is a round, and it is the last one
  have hlimit : 0 < roundLimit s := Nat.pow_pos (Nat.succ_pos _)
  obtain ⟨limit, heq⟩ := Nat.exists_eq_succ_of_ne_zero (Nat.ne_of_gt hlimit)
  have hrounds : coalesceFor (roundLimit s) s = .ok {} s := by
    rw [heq, coalesceFor, Editing.bind_run_of_ok (coalesce_of_settled h)]
    rfl
  exact reduce_of_stages (removeDead_of_noDead h.noDead) (foldTransforms_of_settled h) rfl hrounds

/-! ## Where nothing happened -/

omit [Scalar K] in
/-- Conversely, a step that counts nothing had nothing to do; here it found nothing dead. -/
theorem idle_of_dropDead {dead : List ObjectId} (hrun : dropDead dead x s = .ok done s')
    (hnone : done.total = 0) : s' = s ∧ ∀ o shapes, s.get? x = some o →
      o.content.shapes? = some shapes → ∀ c ∈ shapes, c ∉ dead := by
  rcases dropDead_spec dead x s with ⟨hidle, hreason⟩ | ⟨o, shapes, n, -, -, -, hpos, -, hactive⟩
  · rw [hidle] at hrun
    cases hrun
    exact ⟨rfl, hreason⟩
  · rw [hactive] at hrun
    obtain ⟨⟨⟩, t, -, hdone⟩ := Editing.exists_of_bind hrun
    cases hdone
    simp only [Reduction.total] at hnone
    omega

omit [Scalar K] in
/-- A step that splices nothing found nothing to splice. -/
theorem idle_of_spliceObject {read : List ObjectId} (hrun : spliceObject read x s = .ok done s')
    (hnone : done.total = 0) : s' = s ∧ SpliceIdle s read x := by
  rcases spliceObject_spec read x s with ⟨hidle, hreason⟩ | ⟨o, n, -, hpos, -, hactive⟩
  · rw [hidle] at hrun
    cases hrun
    exact ⟨rfl, hreason⟩
  · rw [hactive] at hrun
    obtain ⟨⟨⟩, t, -, hdone⟩ := Editing.exists_of_bind hrun
    cases hdone
    simp only [Reduction.total] at hnone
    omega

/-- A step that pushes nothing down found nothing to push. -/
theorem idle_of_pushObject {single : ObjectId → Bool} (hrun : pushObject single x s = .ok done s')
    (hnone : done.total = 0) : s' = s ∧ PushIdle s single x := by
  rcases pushObject_spec single x s with
    ⟨hidle, hreason⟩ | ⟨o, m, shapes, -, -, -, -, -, hactive⟩
  · rw [hidle] at hrun
    cases hrun
    exact ⟨rfl, hreason⟩
  · rw [hactive] at hrun
    obtain ⟨⟨⟩, t, -, hrest⟩ := Editing.exists_of_bind hrun
    obtain ⟨⟨⟩, u, -, hdone⟩ := Editing.exists_of_bind hrest
    cases hdone
    simp [Reduction.total] at hnone

/-- After a round that counts nothing, nothing is left to push down or to splice. -/
theorem idle_of_coalesce (hrun : coalesce s = .ok done s') (hnone : done.total = 0) :
    s' = s ∧ (∀ x ∈ s.reachable, PushIdle s (isSingle s) x) ∧
      ∀ x ∈ s.reachable, SpliceIdle s s.readByExpressions x := by
  obtain ⟨pushed, t, hpush, hrest⟩ := Editing.exists_of_bind hrun
  obtain ⟨spliced, u, hsplice, hdone⟩ := Editing.exists_of_bind hrest
  cases hdone
  rw [Reduction.total_add] at hnone
  have hpushes : Editing.sumOver (pushObject (isSingle s)) s.reachable s = .ok pushed t := hpush
  obtain ⟨rfl, hpushIdle⟩ :=
    Editing.idle_of_sumOver (fun x _ n t => idle_of_pushObject) hpushes (by omega)
  have hsplices : Editing.sumOver (spliceObject t.readByExpressions) t.reachable t =
      .ok spliced s' := hsplice
  obtain ⟨hs', hspliceIdle⟩ :=
    Editing.idle_of_sumOver (fun x _ n t => idle_of_spliceObject) hsplices (by omega)
  exact ⟨hs', hpushIdle, hspliceIdle⟩

end Reduction
end Diorama
