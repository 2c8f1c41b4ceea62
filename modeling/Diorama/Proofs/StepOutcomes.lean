/-
  What a step of the reduction comes to.

  A step looks at one object.  Either it leaves the scene as it is, and then there was nothing to
  do, or it makes changes that count.  One lemma for each kind of step says both (`…_spec`), with
  the reason in the first case and the changes in the second, and everything else about steps is
  read off it: what a step that succeeds has done (`…_cases`), where it fails, and what holds where
  it does nothing.
-/
import Diorama.Proofs.Edits
import Diorama.Reduction.Settle

namespace Diorama

variable {K : Type}

namespace Reduction

variable {s s' : Scene K} {x : ObjectId} {read : List ObjectId} {done : Reduction}

/-! ## Dead containers -/

/-- What dropping at one object does: nothing, if nothing in its list is dead, or else one
change. -/
theorem dropDead_spec (dead : List ObjectId) (x : ObjectId) (s : Scene K) :
    (dropDead dead x s = .ok {} s ∧ ∀ o shapes, s.get? x = some o →
      o.content.shapes? = some shapes → ∀ c ∈ shapes, c ∉ dead) ∨
    ∃ o shapes n, s.get? x = some o ∧ o.content.shapes? = some shapes ∧ (∃ c ∈ shapes, c ∈ dead) ∧
      0 < n ∧ n = shapes.length - (shapes.filter fun c => !dead.contains c).length ∧
      dropDead dead x s = (do
        Editing.change x fun o =>
          { o with content := o.content.withChildren (shapes.filter fun c => !dead.contains c) }
        return { deadRemoved := n } : Editing K Reduction) s := by
  rw [dropDead, Editing.get_bind_run]
  cases ho : s.get? x with
  | none => exact .inl ⟨rfl, fun o shapes hx => nomatch hx⟩
  | some o =>
    cases hshapes : o.content.shapes? with
    | none =>
      simp only [hshapes]
      refine .inl ⟨rfl, fun p shapes hp hpshapes => ?_⟩
      cases hp
      rw [hshapes] at hpshapes
      cases hpshapes
    | some shapes =>
      simp only [hshapes]
      by_cases hany : shapes.any dead.contains = true
      · rw [if_pos hany]
        obtain ⟨c, hc, hdead⟩ := List.any_eq_true.mp hany
        refine .inr ⟨o, shapes, _, rfl, hshapes, ⟨c, hc, by simpa using hdead⟩, ?_, rfl, rfl⟩
        -- what is dropped is counted
        have hshorter : (shapes.filter fun c => !dead.contains c).length <
            (shapes.filter fun _ => true).length :=
          length_filter_lt_length_filter (fun _ _ => rfl) hc rfl (by simpa using hdead)
        rw [List.filter_true] at hshorter
        omega
      · rw [if_neg hany]
        refine .inl ⟨rfl, fun p shapes' hp hshapes' c hc hdead => hany ?_⟩
        obtain rfl := Option.some.inj hp
        obtain rfl := Option.some.inj (hshapes.symm.trans hshapes')
        exact List.any_eq_true.mpr ⟨c, hc, by simpa using hdead⟩

/-- A step of dropping that succeeds leaves the scene as it was or shortens one list. -/
theorem dropDead_cases {dead : List ObjectId} (h : dropDead dead x s = .ok done s') :
    s' = s ∨ ∃ o shapes, s.get? x = some o ∧ o.content.shapes? = some shapes ∧
      s.Edited (editOf [x] fun o =>
        { o with content := o.content.withChildren (shapes.filter fun c => !dead.contains c) })
          s' := by
  rcases dropDead_spec dead x s with ⟨hidle, -⟩ | ⟨o, shapes, n, ho, hshapes, -, -, -, hrun⟩
  · rw [hidle] at h
    cases h
    exact .inl rfl
  · rw [hrun] at h
    obtain ⟨⟨⟩, t, hchange, hdone⟩ := Editing.exists_of_bind h
    obtain rfl := Editing.eq_of_pure hdone
    exact .inr ⟨o, shapes, ho, hshapes, Editing.edited_of_change hchange⟩

/-- What every round of dropping preserves, all rounds preserve; and they end where nothing is dead,
or after a round that made the lists no shorter. -/
theorem dropDeadFrom_cases {P : Scene K → Prop}
    (hround : ∀ t t' n, P t →
      Editing.sumOver (dropDead (deadContainers t)) t.reachable t = .ok n t' → P t')
    {before : Reduction} (h : P s) (hrun : dropDeadFrom before s = .ok done s') :
    P s' ∧ (deadContainers s' = [] ∨ ∃ t n, P t ∧ t.childCount ≤ s'.childCount ∧
      Editing.sumOver (dropDead (deadContainers t)) t.reachable t = .ok n s') := by
  fun_induction dropDeadFrom before s with
  | case1 before t hnone =>
    cases hrun
    exact ⟨h, .inl hnone⟩
  | case2 => cases hrun
  | case3 before t dropped next _ _ hsum ih => exact ih (hround t next dropped h hsum) hrun
  | case4 before t dropped next hlonger _ hsum =>
    cases hrun
    exact ⟨hround t s' dropped h hsum, .inr ⟨t, dropped, h, Nat.not_lt.mp hlonger, hsum⟩⟩

/-- What every round of dropping keeps, all rounds keep. -/
theorem dropDeadFrom_keeps {P : Scene K → Prop}
    (hround : ∀ t : Scene K,
      Editing.Keeps P (Editing.sumOver (dropDead (deadContainers t)) t.reachable))
    (before : Reduction) : Editing.Keeps P (dropDeadFrom before) := by
  intro s h
  unfold Editing.left
  fun_induction dropDeadFrom before s with
  | case1 => exact h
  | case2 before t _ e next hsum =>
    have hnext := hround t t h
    rwa [Editing.left, hsum] at hnext
  | case3 before t dropped next _ _ hsum ih =>
    have hnext := hround t t h
    rw [Editing.left_of_ok hsum] at hnext
    exact ih hnext
  | case4 before t dropped next _ _ hsum =>
    have hnext := hround t t h
    rwa [Editing.left_of_ok hsum] at hnext

/-! ## Splicing -/

/-- What splicing at one object does: nothing, if nothing in its list can be replaced, or else one
change. -/
theorem spliceObject_spec (read : List ObjectId) (x : ObjectId) (s : Scene K) :
    (spliceObject read x s = .ok {} s ∧ ∀ o, s.get? x = some o → ∀ c ∈ o.content.children,
      replacement? s read o.content.shapes?.isSome c = none) ∨
    ∃ o n, s.get? x = some o ∧ 0 < n ∧ n = (o.content.children.countP fun c =>
        (replacement? s read o.content.shapes?.isSome c).isSome) ∧
      spliceObject read x s = (do
        Editing.change x fun p => { p with
          content := p.content.withChildren (o.content.children.flatMap fun c =>
            (replacement? s read o.content.shapes?.isSome c).getD [c]) }
        return { spliced := n } : Editing K Reduction) s := by
  rw [spliceObject, Editing.get_bind_run]
  cases ho : s.get? x with
  | none => exact .inl ⟨rfl, fun o hx => nomatch hx⟩
  | some o =>
    simp only []
    split
    · rename_i hnone
      refine .inl ⟨rfl, fun p hp c hc => ?_⟩
      obtain rfl := Option.some.inj hp
      have hkept := List.countP_eq_zero.mp hnone c hc
      simpa using hkept
    · rename_i hsome
      exact .inr ⟨o, _, rfl, Nat.pos_of_ne_zero hsome, rfl, rfl⟩

/-- A step of splicing that succeeds leaves the scene as it was or rewrites one list. -/
theorem spliceObject_cases (h : spliceObject read x s = .ok done s') :
    s' = s ∨ ∃ o, s.get? x = some o ∧
      s.Edited (editOf [x] fun p => { p with
        content := p.content.withChildren (o.content.children.flatMap fun c =>
          (replacement? s read o.content.shapes?.isSome c).getD [c]) }) s' := by
  rcases spliceObject_spec read x s with ⟨hidle, -⟩ | ⟨o, n, ho, -, -, hrun⟩
  · rw [hidle] at h
    cases h
    exact .inl rfl
  · rw [hrun] at h
    obtain ⟨⟨⟩, t, hchange, hdone⟩ := Editing.exists_of_bind h
    obtain rfl := Editing.eq_of_pure hdone
    exact .inr ⟨o, ho, Editing.edited_of_change hchange⟩

variable [Scalar K]

/-! ## Folding -/

/-- What folding one object does: nothing, if it is read, driven or has nothing to fold, or else one
change. -/
theorem foldObject_spec (read : List ObjectId) (x : ObjectId) (s : Scene K) :
    (foldObject read x s = .ok {} s ∧ (x ∉ read → ∀ o, s.get? x = some o →
      o.attached.animatesAny transformProperties = false → foldContent? o.content = none)) ∨
    ∃ o content n, x ∉ read ∧ s.get? x = some o ∧
      o.attached.animatesAny transformProperties = false ∧
      foldContent? o.content = some (content, n) ∧
      foldObject read x s = (do
        Editing.change x fun o => { o with content }
        return n : Editing K Reduction) s := by
  rw [foldObject]
  by_cases hread : read.contains x = true
  · rw [if_pos hread]
    exact .inl ⟨rfl, fun hx => absurd (List.contains_iff_mem.mp hread) hx⟩
  · rw [if_neg hread, Editing.get_bind_run]
    cases ho : s.get? x with
    | none => exact .inl ⟨rfl, fun _ o hx => nomatch hx⟩
    | some o =>
      simp only []
      by_cases hdriven : o.attached.animatesAny transformProperties = true
      · rw [if_pos hdriven]
        refine .inl ⟨rfl, fun _ p hp hstill => ?_⟩
        obtain rfl := Option.some.inj hp
        rw [hdriven] at hstill
        cases hstill
      · rw [if_neg hdriven]
        cases hfold : foldContent? o.content with
        | none =>
          refine .inl ⟨rfl, fun _ p hp _ => ?_⟩
          obtain rfl := Option.some.inj hp
          exact hfold
        | some folded =>
          exact .inr ⟨o, folded.1, folded.2, fun hx => hread (List.contains_iff_mem.mpr hx), rfl,
            Bool.eq_false_iff.mpr hdriven, hfold, rfl⟩

/-- A step of folding that succeeds leaves the scene as it was or changes one content. -/
theorem foldObject_cases (h : foldObject read x s = .ok done s') :
    s' = s ∨ ∃ o content n, s.get? x = some o ∧
      o.attached.animatesAny transformProperties = false ∧
      foldContent? o.content = some (content, n) ∧
      s.Edited (editOf [x] fun o => { o with content }) s' := by
  rcases foldObject_spec read x s with ⟨hidle, -⟩ | ⟨o, content, n, -, ho, hstill, hfold, hrun⟩
  · rw [hidle] at h
    cases h
    exact .inl rfl
  · rw [hrun] at h
    obtain ⟨⟨⟩, t, hchange, hdone⟩ := Editing.exists_of_bind h
    obtain rfl := Editing.eq_of_pure hdone
    exact .inr ⟨o, content, n, ho, hstill, hfold, Editing.edited_of_change hchange⟩

/-! ## Pushing down -/

/-- What pushing down at one object does: nothing, unless it is a container with a matrix whose
shapes can all take it over; then they do, and the container drops it. -/
theorem pushObject_spec (single : ObjectId → Bool) (x : ObjectId) (s : Scene K) :
    (pushObject single x s = .ok {} s ∧ (x ≠ s.root → single x = true → ∀ o m shapes,
      s.get? x = some o → matrixContainer? o = some (m, shapes) →
        ∃ c ∈ shapes, ¬(single c = true ∧ ∃ p, s.get? c = some p ∧ accepts p = true))) ∨
    ∃ o m shapes, x ≠ s.root ∧ single x = true ∧ s.get? x = some o ∧
      matrixContainer? o = some (m, shapes) ∧
      (∀ c ∈ shapes, single c = true ∧ ∃ p, s.get? c = some p ∧ accepts p = true) ∧
      pushObject single x s = (do
        shapes.forM fun c => Editing.change c fun p => { p with content := takeOver m p.content }
        Editing.change x fun p => { p with content := dropMatrix p.content }
        return { pushedDown := 1 } : Editing K Reduction) s := by
  rw [pushObject, Editing.get_bind_run]
  -- the guards in their order: the root and shared objects, containers, shapes that accept
  by_cases hskip : (decide (x = s.root) || !single x) = true
  · rw [if_pos hskip]
    refine .inl ⟨rfl, fun hroot hsingle => ?_⟩
    simp [hroot, hsingle] at hskip
  · rw [if_neg hskip]
    have hseen : x ≠ s.root ∧ single x = true := by simpa using hskip
    cases hcontainer : s.get? x >>= matrixContainer? with
    | none =>
      refine .inl ⟨rfl, fun _ _ o m shapes ho hmatrix => ?_⟩
      rw [ho] at hcontainer
      cases hcontainer.symm.trans hmatrix
    | some pair =>
      obtain ⟨o, ho, hmatrix⟩ := Option.bind_eq_some_iff.mp hcontainer
      have hall : (pair.2.all fun c => single c && (s.get? c).any accepts) = true ↔
          ∀ c ∈ pair.2, single c = true ∧ ∃ p, s.get? c = some p ∧ accepts p = true := by
        simp only [List.all_eq_true, Bool.and_eq_true, Option.any_eq_true]
      simp only []
      by_cases hready : (pair.2.all fun c => single c && (s.get? c).any accepts) = true
      · rw [if_pos hready]
        exact .inr ⟨o, pair.1, pair.2, hseen.1, hseen.2, ho, hmatrix, hall.mp hready, rfl⟩
      · rw [if_neg hready]
        refine .inl ⟨rfl, fun _ _ p m shapes hp hpmatrix => ?_⟩
        obtain rfl := Option.some.inj (ho.symm.trans hp)
        obtain rfl := Option.some.inj (hmatrix.symm.trans hpmatrix)
        rw [hall] at hready
        push Not at hready
        obtain ⟨c, hc, hrefused⟩ := hready
        exact ⟨c, hc, fun haccepts => hrefused haccepts.1 _ haccepts.2.choose_spec.1
          haccepts.2.choose_spec.2⟩

/-- A push keeps what is kept by taking a matrix over and by dropping it, where nobody else sees
it. -/
theorem keeps_pushObject {P : Scene K → Prop} {single : ObjectId → Bool}
    (htake : ∀ m c, single c = true → Editing.Keeps P
      (Editing.change c fun p => { p with content := takeOver m p.content }))
    (hdrop : single x = true → Editing.Keeps P
      (Editing.change x fun p => { p with content := dropMatrix p.content })) :
    Editing.Keeps P (pushObject single x) := by
  intro s h
  rcases pushObject_spec single x s with ⟨hidle, -⟩ | ⟨o, m, shapes, -, hx, -, -, hall, hrun⟩
  · rwa [Editing.left_of_ok hidle]
  · have hshapes := Editing.Keeps.forM fun c hc => htake m c (hall c hc).1
    rw [Editing.left, hrun]
    exact hshapes.bind (fun _ => (hdrop hx).bind fun _ => .pure _) s h

/-! ## Stages -/

/-- A reduction in stages, with the limit of the rounds computed on its own. -/
theorem reduce_of_stages {t u v : Scene K} {dropped folded coalesced : Reduction} {limit : Nat}
    (hdrop : removeDead s = .ok dropped t) (hfold : foldTransforms t = .ok folded u)
    (hlimit : roundLimit u = limit) (hrounds : coalesceFor limit u = .ok coalesced v) :
    reduce s = .ok (dropped + folded + coalesced) v := by
  rw [← hlimit] at hrounds
  rw [reduce, Editing.bind_run_of_ok hdrop, Editing.bind_run_of_ok hfold, Editing.get_bind_run,
    Editing.bind_run_of_ok hrounds]
  rfl

/-- What every pass keeps, a reduction keeps. -/
theorem keeps_reduce {P : Scene K → Prop} (hdrop : Editing.Keeps P removeDead)
    (hfold : Editing.Keeps P foldTransforms) (hpush : Editing.Keeps P pushDown)
    (hsplice : Editing.Keeps P splice) : Editing.Keeps P reduce := by
  have hround : Editing.Keeps P coalesce := hpush.bind fun _ => hsplice.bind fun _ => .pure _
  have hrounds : ∀ limit, Editing.Keeps P (coalesceFor limit) := by
    intro limit
    induction limit with
    | zero => exact .throw _
    | succ limit ih =>
      refine hround.bind fun round => ?_
      split
      · exact .pure _
      · exact ih.bind fun _ => .pure _
  refine hdrop.bind fun _ => hfold.bind fun _ => ?_
  exact .get_bind fun s => (hrounds (roundLimit s)).bind fun _ => .pure _

/-- The edits of a reduction: at one object, in a pass over all objects, and in all passes. -/
inductive IsEdit : Editing K Reduction → Prop where
  | dropDead (dead : List ObjectId) (x : ObjectId) : IsEdit (dropDead dead x)
  | foldObject (read : List ObjectId) (x : ObjectId) : IsEdit (foldObject read x)
  | pushObject (single : ObjectId → Bool) (x : ObjectId) : IsEdit (pushObject single x)
  | spliceObject (read : List ObjectId) (x : ObjectId) : IsEdit (spliceObject read x)
  | removeDead : IsEdit removeDead
  | foldTransforms : IsEdit foldTransforms
  | pushDown : IsEdit pushDown
  | splice : IsEdit splice
  | reduce : IsEdit reduce

end Reduction
end Diorama
