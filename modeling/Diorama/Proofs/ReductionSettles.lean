/-
  A reduction leaves nothing to reduce.

  The last round of pushing down and splicing did nothing, so nothing is left to push down or to
  splice.  But dead containers were dropped and transforms folded only once, before those rounds,
  and the argument is that the rounds make no new work of that kind.

    * Folding and pushing down keep every reference and every list, and a transform that is a matrix
      at most stays one.
    * Splicing puts what a container holds in its place.  A list that had an entry still has one,
      since no container in it was dead.  And every expression stays reachable: the only objects
      that are cut off are bare containers, and what they hold takes their place.  So an object that
      is not read now was not read before (`Narrows`).
-/
import Mathlib
import Diorama.Proofs.EditedObjects
import Diorama.Proofs.ReducedPicture
import Diorama.Proofs.SettledScenes

namespace Diorama

variable {K : Type}

/-! ## Runs -/

namespace Editing

variable {s s' : Scene K} {step : ObjectId → Editing K Reduction} {ids : List ObjectId}
  {done : Reduction} {P : Scene K → Prop}

/-- What every step of a list preserves, the list preserves. -/
theorem Preserves.forM {f : ObjectId → Editing K Unit} {ids : List ObjectId}
    (h : ∀ c ∈ ids, Preserves P (f c)) : Preserves P (ids.forM f) := by
  induction ids with
  | nil => exact .pure _
  | cons c ids ih =>
    exact (h c List.mem_cons_self).bind fun _ => ih fun d hd => h d (List.mem_cons_of_mem _ hd)

/-- What each step makes true of its object, and every step keeps, a pass makes true of all
objects. -/
theorem sumOver_establishes {Q : ObjectId → Scene K → Prop}
    (hP : ∀ x ∈ ids, Preserves P (step x))
    (hkeep : ∀ x ∈ ids, ∀ y, Preserves (fun s => P s ∧ Q y s) (step x))
    (hmake : ∀ x ∈ ids, ∀ s s' n, P s → step x s = .ok n s' → Q x s')
    (h : P s) (hrun : sumOver step ids s = .ok done s') : P s' ∧ ∀ x ∈ ids, Q x s' := by
  induction ids generalizing s done with
  | nil =>
    cases hrun
    exact ⟨h, by simp⟩
  | cons x ids ih =>
    obtain ⟨first, t, hfirst, hrest⟩ := exists_of_bind hrun
    obtain ⟨others, u, hothers, hdone⟩ := exists_of_bind hrest
    cases hdone
    have ht := hP x List.mem_cons_self s t first h hfirst
    have hx := hmake x List.mem_cons_self s t first h hfirst
    have htail : ∀ y ∈ ids, y ∈ x :: ids := fun y hy => List.mem_cons_of_mem _ hy
    have hlater :=
      Preserves.sumOver (fun y hy => hkeep y (htail y hy) x) t s' others ⟨ht, hx⟩ hothers
    obtain ⟨hs', hall⟩ := ih (fun y hy => hP y (htail y hy)) (fun y hy => hkeep y (htail y hy))
      (fun y hy => hmake y (htail y hy)) ht hothers
    exact ⟨hs', List.forall_mem_cons.mpr ⟨hlater.2, hall⟩⟩

end Editing

namespace Reduction

variable [Scalar K] {A : ObjectId → Prop} {rank : ObjectId → Nat} {s₀ s s' : Scene K}
  {x : ObjectId} {o : Object K} {read : List ObjectId} {done : Reduction}
  {g : ObjectId → Object K → Object K}

/-! ## In the course of a reduction -/

/-- What holds in the course of a reduction of `s₀`. -/
structure Underway (A : ObjectId → Prop) (rank : ObjectId → Nat) (s₀ s : Scene K) : Prop where
  ranked : s.Ranked A rank
  root : A s.root
  edited : ∃ g, s₀.Edited g s ∧ ∀ y p, s₀.get? y = some p → p.Remains (g y p)

namespace Underway

/-- At the beginning nothing was edited. -/
theorem start (h : s.Ranked A rank) (hroot : A s.root) : Underway A rank s s :=
  ⟨h, hroot, _, .refl s, fun _ p _ => .refl p⟩

/-- An edit leads on if references stay ranked and it leaves of every object what a reduction
leaves. -/
theorem next (h : Underway A rank s₀ s) (he : s.Edited g s') (hranked : s'.Ranked A rank)
    (hg : ∀ y p, s.get? y = some p → p.Remains (g y p)) : Underway A rank s₀ s' := by
  obtain ⟨g₀, he₀, hg₀⟩ := h.edited
  refine ⟨hranked, he.root ▸ h.root, _, he₀.trans he, fun y p hp => ?_⟩
  exact (hg₀ y p hp).trans (hg y _ (he₀.get? hp))

/-- An edit of one object that refers to nothing new but what it referred to through others. -/
theorem next_one (h : Underway A rank s₀ s) (ho : s.get? x = some o) {f : Object K → Object K}
    (he : s.Edited (editOf [x] f) s') (hf : o.Remains (f o))
    (htargets : ∀ t ∈ (f o).targets, t ∈ o.targets ∨ ∃ c ∈ o.targets, s.Refers c t) :
    Underway A rank s₀ s' := by
  refine h.next he (h.ranked.edited_one ho he fun _ => htargets) fun y p hp => ?_
  rcases editOf_singleton_cases f ho hp with ⟨-, rfl, hedit⟩ | ⟨-, hedit⟩
  · rw [hedit]
    exact hf
  · rw [hedit]
    exact .refl p

variable (h : Underway A rank s₀ s)

include h

/-- An object is reachable exactly if the root reaches it. -/
theorem mem_reachable_iff {y : ObjectId} : y ∈ s.reachable ↔ s.Reaches s.root y :=
  h.ranked.mem_reachable_iff h.root

/-- What a reachable object refers to is reachable, and it is not the root. -/
theorem target {y c : ObjectId} (hy : y ∈ s.reachable) (hyc : s.Refers y c) :
    c ∈ s.reachable ∧ c ≠ s.root := by
  obtain ⟨hA, hle⟩ := h.ranked.reaches_lower h.root (h.mem_reachable_iff.mp hy)
  have hlower := h.ranked.descends hA hyc
  refine ⟨h.mem_reachable_iff.mpr ((h.mem_reachable_iff.mp hy).tail hyc), ?_⟩
  rintro rfl
  omega

end Underway

/-- Nothing new is reachable, and what was read is still read. -/
structure Narrows (s s' : Scene K) : Prop where
  reachable {y : ObjectId} : y ∈ s'.reachable → y ∈ s.reachable
  read {y : ObjectId} : y ∈ s.readByExpressions → y ∈ s'.readByExpressions

omit [Scalar K] in
theorem Narrows.trans {s'' : Scene K} (h : Narrows s s') (h' : Narrows s' s'') : Narrows s s'' :=
  ⟨fun hy => h.reachable (h'.reachable hy), fun hy => h'.read (h.read hy)⟩

/-- Every transform that may be folded is a matrix at most. -/
def Folded (s : Scene K) : Prop := ∀ x ∈ s.reachable, FoldIdle s s.readByExpressions x

/-- Fewer objects are read as a scene narrows, so the test is about fewer objects. -/
theorem Folded.narrow (h : Folded s) (hnarrows : Narrows s s')
    (hkeep : ∀ y, FoldIdle s s.readByExpressions y → FoldIdle s' s.readByExpressions y) :
    Folded s' := by
  intro y hy hunread
  exact hkeep y (h y (hnarrows.reachable hy)) fun hread => hunread (hnarrows.read hread)

/-! ## Restyling -/

section Restyling

variable (h : Underway A rank s₀ s) (he : s.Edited g s')
  (hg : ∀ y p, s.get? y = some p → p.Restyled (g y p))

include he hg

/-- Restyled objects refer to what they referred to. -/
theorem refers_restyled {a b : ObjectId} : s'.Refers a b ↔ s.Refers a b := by
  have htargets : s'.targetsOf a = s.targetsOf a := by
    unfold Scene.targetsOf
    rw [he.object]
    cases hp : s.get? a with
    | none => rfl
    | some p => exact (hg a p hp).targets
  rw [Scene.Refers, Scene.Refers, htargets]

/-- A restyled object that does not fold still does not. -/
theorem foldIdle_restyled {y : ObjectId} (hidle : FoldIdle s read y) : FoldIdle s' read y := by
  intro hunread q hq hstill
  rw [he.object] at hq
  obtain ⟨p, hp, rfl⟩ := Option.map_eq_some_iff.mp hq
  have hrestyled := hg y p hp
  rw [hrestyled.attached] at hstill
  exact hrestyled.content.foldContent?_eq_none (hidle hunread p hp hstill)

include h

theorem underway_restyled : Underway A rank s₀ s' := by
  have hranked : s'.Ranked A rank := by
    refine h.ranked.edited he fun y p hy hp t ht => ?_
    rw [(hg y p hp).targets] at ht
    have hrefers := Scene.refers_of_get? hp ht
    exact ⟨h.ranked.closed hy hrefers, h.ranked.descends hy hrefers⟩
  exact h.next he hranked fun y p hp => (hg y p hp).remains

/-- What is reachable does not change with transforms. -/
theorem mem_reachable_restyled {y : ObjectId} : y ∈ s'.reachable ↔ y ∈ s.reachable := by
  have hrefers : s'.Refers = s.Refers := by
    funext a b
    exact propext (refers_restyled he hg)
  rw [(underway_restyled h he hg).mem_reachable_iff, h.mem_reachable_iff, Scene.Reaches,
    Scene.Reaches, hrefers, he.root]

/-- A restyled scene has narrowed in the weak sense: it is what it was. -/
theorem narrows_restyled : Narrows s s' := by
  refine ⟨(mem_reachable_restyled h he hg).mp, fun hy => ?_⟩
  obtain ⟨a, ha, p, hp, hread⟩ := mem_readByExpressions.mp hy
  refine mem_readByExpressions.mpr ⟨a, (mem_reachable_restyled h he hg).mpr ha, _, he.get? hp, ?_⟩
  rw [(hg a p hp).content.read]
  exact hread

/-- Restyling kills no container. -/
theorem noDead_restyled (hdead : NoDead s) : NoDead s' := by
  intro y hy q shapes hq hshapes c hc r hr
  rw [he.object] at hq hr
  obtain ⟨p, hp, rfl⟩ := Option.map_eq_some_iff.mp hq
  obtain ⟨d, hd, rfl⟩ := Option.map_eq_some_iff.mp hr
  rw [(hg y p hp).content.shapes?] at hshapes
  rw [(hg c d hd).isDead]
  exact hdead y ((mem_reachable_restyled h he hg).mp hy) p shapes hp hshapes c hc d hd

end Restyling

/-! ## Dead containers -/

/-- Dropping leaves of every object what a reduction leaves. -/
theorem dropDead_underway (dead : List ObjectId) (x : ObjectId) :
    Editing.Preserves (Underway A rank s₀) (dropDead dead x) := by
  intro s s' done h hstep
  rcases dropDead_cases hstep with rfl | ⟨o, shapes, ho, hshapes, he⟩
  · exact h
  · refine h.next_one ho he (.relist _ o) fun t ht => .inl ?_
    rcases Object.mem_targets_withChildren ht with hkept | hold
    · have hchild : t ∈ o.content.children :=
        children_of_shapes? hshapes ▸ (List.mem_filter.mp hkept).1
      exact Object.mem_targets_of_mem_children hchild
    · exact hold

/-- The length of a list in parts changes by what one part changes by. -/
theorem length_flatMap_set {α β : Type} (f : α → List β) {l : List α} {i : Nat} {a : α}
    (h : l[i]? = some a) (b : α) :
    ((l.set i b).flatMap f).length + (f a).length = (l.flatMap f).length + (f b).length := by
  induction l generalizing i with
  | nil => simp at h
  | cons c l ih =>
    cases i with
    | zero =>
      obtain rfl : c = a := by simpa using h
      simp only [List.set_cons_zero, List.flatMap_cons, List.length_append]
      omega
    | succ i =>
      have hrest := ih (i := i) (by simpa using h)
      simp only [List.set_cons_succ, List.flatMap_cons, List.length_append]
      omega

omit [Scalar K] in
/-- An edit of one object changes the number of children by its own. -/
theorem childCount_set (ho : s.get? x = some o) (o' : Object K) :
    (s.set x o').childCount + o.content.children.length =
      s.childCount + o'.content.children.length := by
  have hget : s.objects.toList[x.index]? = some o := by simpa [Scene.get?] using ho
  simp only [Scene.childCount, Scene.set, Array.toList_setIfInBounds]
  exact length_flatMap_set (fun o : Object K => o.content.children) hget o'

omit [Scalar K] in
/-- What is dropped shortens a list. -/
theorem dropDead_costs (dead : List ObjectId) (x : ObjectId) :
    Editing.Costs (fun _ => True) Scene.childCount (dropDead dead x : Editing K Reduction) := by
  intro s s' done _ hrun
  rcases dropDead_spec dead x s with ⟨hidle, -⟩ | ⟨o, shapes, n, ho, hshapes, -, -, hn, hactive⟩
  · rw [hidle] at hrun
    cases hrun
    exact ⟨trivial, Nat.le_refl _⟩
  · rw [hactive] at hrun
    obtain ⟨⟨⟩, t, hchange, hdone⟩ := Editing.exists_of_bind hrun
    cases hdone
    obtain ⟨p, hp, -, rfl⟩ := Editing.eq_set_of_change hchange
    obtain rfl := Option.some.inj (ho.symm.trans hp)
    -- the list gets shorter by as many entries as are counted
    have hlength := childCount_set ho
      { o with content := o.content.withChildren (shapes.filter fun c => !dead.contains c) }
    have hfilter := List.length_filter_le (fun c => !dead.contains c) shapes
    have hbefore : o.content.children = shapes := children_of_shapes? hshapes
    have hafter : (o.content.withChildren (shapes.filter fun c => !dead.contains c)).children =
        shapes.filter fun c => !dead.contains c := by
      cases hc : o.content with
      | shapeVisual => rfl
      | containerShape => rfl
      | _ => simp [hc, Content.shapes?] at hshapes
    rw [hbefore, hafter] at hlength
    refine ⟨trivial, ?_⟩
    simp only [Reduction.total]
    omega

omit [Scalar K] in
/-- A round that does not shorten a list counts nothing, and the other way round. -/
theorem dropped_none_iff {dead ids : List ObjectId}
    (hrun : Editing.sumOver (dropDead dead) ids s = .ok done s') :
    s.childCount ≤ s'.childCount ↔ done.total = 0 := by
  have hcost := Editing.Costs.sumOver (fun x _ => dropDead_costs dead x) s s' done trivial hrun
  constructor
  · intro hcount
    omega
  · intro hnone
    obtain ⟨rfl, -⟩ := Editing.idle_of_sumOver (fun x _ n t => idle_of_dropDead) hrun hnone
    exact Nat.le_refl _

/-- Nothing is dead where no list holds anything dead. -/
theorem noDead_of_not_mem (h : Underway A rank s₀ s)
    (hnone : ∀ x ∈ s.reachable, ∀ o shapes, s.get? x = some o → o.content.shapes? = some shapes →
      ∀ c ∈ shapes, c ∉ deadContainers s) : NoDead s := by
  intro x hx o shapes ho hshapes c hc p hp
  by_contra hdead
  have hchild : c ∈ o.content.children := children_of_shapes? hshapes ▸ hc
  obtain ⟨hreach, hroot⟩ :=
    h.target hx (Scene.refers_of_get? ho (Object.mem_targets_of_mem_children hchild))
  refine hnone x hx o shapes ho hshapes c hc (List.mem_filter.mpr ⟨hreach, ?_⟩)
  rw [Bool.not_eq_false] at hdead
  simp [hroot, hp, hdead]

/-- **Nothing dead is left** after dropping. -/
theorem removeDead_settles (h : Underway A rank s₀ s) (hrun : removeDead s = .ok done s') :
    Underway A rank s₀ s' ∧ NoDead s' := by
  have hround : ∀ t t' n, Underway A rank s₀ t →
      Editing.sumOver (dropDead (deadContainers t)) t.reachable t = .ok n t' →
      Underway A rank s₀ t' := fun t t' n ht =>
    Editing.Preserves.sumOver (fun x _ => dropDead_underway (deadContainers t) x) t t' n ht
  obtain ⟨hs', hend⟩ := dropDeadFrom_cases hround h hrun
  refine ⟨hs', ?_⟩
  rcases hend with hnone | ⟨t, n, -, hcount, hsum⟩
  · exact noDead_of_not_mem hs' (by simp [hnone])
  · -- the lists did not get shorter, so nothing was dropped
    have hnone := (dropped_none_iff hsum).mp hcount
    obtain ⟨rfl, hidle⟩ := Editing.idle_of_sumOver (fun x _ n t => idle_of_dropDead) hsum hnone
    exact noDead_of_not_mem hs' hidle

/-! ## Folding -/

/-- A fold restyles its object, and leaves nothing to fold there. -/
theorem foldObject_restyles (hrun : foldObject read x s = .ok done s') :
    (∃ g, s.Edited g s' ∧ ∀ y p, s.get? y = some p → p.Restyled (g y p)) ∧ FoldIdle s' read x := by
  rcases foldObject_spec read x s with
    ⟨hidle, hreason⟩ | ⟨o, content, n, hread, ho, hstill, hfold, hactive⟩
  · rw [hidle] at hrun
    cases hrun
    exact ⟨⟨_, .refl s, fun _ p _ => .refl p⟩, hreason⟩
  · rw [hactive] at hrun
    obtain ⟨⟨⟩, t, hchange, hdone⟩ := Editing.exists_of_bind hrun
    cases hdone
    have he := Editing.edited_of_change hchange
    have hfolds := folds_of_foldContent? hfold
    refine ⟨⟨_, he, fun y p hp => ?_⟩, fun _ q hq _ => ?_⟩
    · rcases editOf_singleton_cases (fun o => { o with content }) ho hp with
        ⟨-, rfl, hedit⟩ | ⟨-, hedit⟩
      · rw [hedit]
        exact ⟨rfl, restyled_of_folds hfolds⟩
      · rw [hedit]
        exact .refl p
    · rw [he.get? ho, editOf_of_mem List.mem_cons_self] at hq
      obtain rfl := Option.some.inj hq
      show foldContent? content = none
      generalize o.content = c at hfolds
      cases hfolds <;> rfl

/-- **Nothing is left to fold** after folding, and nothing dead comes up. -/
theorem foldTransforms_settles (h : Underway A rank s₀ s) (hdead : NoDead s)
    (hrun : foldTransforms s = .ok done s') :
    Underway A rank s₀ s' ∧ NoDead s' ∧ Folded s' := by
  have hstep : ∀ x, Editing.Preserves
      (fun t => Underway A rank s₀ t ∧ NoDead t ∧ Narrows s t)
        (foldObject s.readByExpressions x) := by
    rintro x t t' n ⟨ht, htdead, hnarrows⟩ hfold
    obtain ⟨⟨g, he, hg⟩, -⟩ := foldObject_restyles hfold
    exact ⟨underway_restyled ht he hg, noDead_restyled ht he hg htdead,
      hnarrows.trans (narrows_restyled ht he hg)⟩
  have hkeep : ∀ x y, Editing.Preserves
      (fun t => (Underway A rank s₀ t ∧ NoDead t ∧ Narrows s t) ∧ FoldIdle t s.readByExpressions y)
      (foldObject s.readByExpressions x) := by
    rintro x y t t' n ⟨ht, hidle⟩ hfold
    obtain ⟨⟨g, he, hg⟩, -⟩ := foldObject_restyles hfold
    exact ⟨hstep x t t' n ht hfold, foldIdle_restyled he hg hidle⟩
  obtain ⟨⟨hs', hsdead, hnarrows⟩, hidle⟩ := Editing.sumOver_establishes (fun x _ => hstep x)
    (fun x _ => hkeep x) (fun x _ t t' n _ hfold => (foldObject_restyles hfold).2)
    ⟨h, hdead, fun hy => hy, fun hy => hy⟩ hrun
  refine ⟨hs', hsdead, fun y hy hunread => ?_⟩
  exact hidle y (hnarrows.reachable hy) fun hread => hunread (hnarrows.read hread)

/-! ## Pushing down -/

/-- What holds once dead containers are dropped and transforms are folded. -/
structure Clean (A : ObjectId → Prop) (rank : ObjectId → Nat) (s₀ s : Scene K) : Prop where
  underway : Underway A rank s₀ s
  noDead : NoDead s
  folded : Folded s

/-- A change of the transform keeps the scene clean. -/
theorem change_clean {f : Object K → Object K} (hf : ∀ p : Object K, p.Restyled (f p))
    (c : ObjectId) : Editing.Preserves (Clean A rank s₀) (Editing.change c f) := by
  intro s s' _ h hrun
  have he := Editing.edited_of_change hrun
  have hg : ∀ y p, s.get? y = some p → p.Restyled (editOf [c] f y p) := by
    intro y p _
    unfold editOf
    split
    · exact hf p
    · exact .refl p
  exact ⟨underway_restyled h.underway he hg, noDead_restyled h.underway he hg h.noDead,
    h.folded.narrow (narrows_restyled h.underway he hg) fun _ => foldIdle_restyled he hg⟩

/-- A push is made of such changes. -/
theorem pushObject_clean (single : ObjectId → Bool) (x : ObjectId) :
    Editing.Preserves (Clean A rank s₀) (pushObject single x) := by
  intro s s' done h hstep
  rcases pushObject_cases hstep with rfl | ⟨o, m, shapes, t, -, -, -, -, hshapes, hdrop⟩
  · exact h
  · have htake : ∀ p : Object K, p.Restyled { p with content := takeOver m p.content } :=
      fun p => ⟨rfl, restyled_takeOver m p.content⟩
    have hbare : ∀ p : Object K, p.Restyled { p with content := dropMatrix p.content } :=
      fun p => ⟨rfl, restyled_dropMatrix p.content⟩
    have ht := Editing.Preserves.forM (fun c _ => change_clean htake c) s t _ h hshapes
    exact change_clean hbare x t s' _ ht hdrop

/-! ## Splicing -/

omit [Scalar K] in
/-- A container that is spliced refers to what it holds and to nothing else, and it reads
nothing. -/
theorem bare_of_replacement? {inShapes : Bool} {c : ObjectId} {held : List ObjectId}
    (h : replacement? s read inShapes c = some held) :
    ∃ p, s.get? c = some p ∧ p.targets = held ∧ p.content.read = [] := by
  obtain ⟨p, hp, hbare, hc⟩ := exists_of_replacement? h
  have hnone : p.animatorReferences = [] := by
    simp [Object.animatorReferences, p.attached.animators_of_isEmpty hbare]
  refine ⟨p, hp, ?_, ?_⟩
  · rw [Object.targets, Object.references, hnone, List.append_nil]
    rcases hc with ⟨-, hc⟩ | ⟨-, hc⟩
    · rw [hc]
      exact Reference.map_target_many .child held
    · rw [hc]
      exact Reference.map_target_many .child held
  · rcases hc with ⟨-, hc⟩ | ⟨-, hc⟩
    · rw [hc]
      rfl
    · rw [hc]
      rfl

section Splicing

variable (h : Clean A rank s₀ s) (ho : s.get? x = some o)
  (he : s.Edited (editOf [x] (Object.relist (splicedList s read o))) s')

include h ho he

/-- Splicing edits one list. -/
theorem underway_spliced : Underway A rank s₀ s' :=
  h.underway.next_one ho he (.relist _ o) fun _ => targets_splicedList

omit [Scalar K] h in
/-- Splicing makes nothing reachable. -/
theorem reachable_spliced {y : ObjectId} (hy : y ∈ s'.reachable) : y ∈ s.reachable := by
  refine Scene.mem_reachable_of_shortcuts he.root (fun a q hq => ?_) (fun a b hab => ?_) hy
  · rw [he.object] at hq
    obtain ⟨p, hp, -⟩ := Option.map_eq_some_iff.mp hq
    exact ⟨p, hp⟩
  · obtain ⟨q, hq, hb⟩ := Scene.exists_get?_of_refers hab
    rw [he.object] at hq
    obtain ⟨p, hp, rfl⟩ := Option.map_eq_some_iff.mp hq
    rcases editOf_singleton_cases (Object.relist (splicedList s read o)) ho hp with
      ⟨rfl, rfl, hedit⟩ | ⟨-, hedit⟩
    · rw [hedit] at hb
      rcases targets_splicedList hb with hold | ⟨c, hc, hcb⟩
      · exact .inl (Scene.refers_of_get? hp hold)
      · exact .inr ⟨c, Scene.refers_of_get? hp hc, hcb⟩
    · rw [hedit] at hb
      exact .inl (Scene.refers_of_get? hp hb)

/-- **Splicing cuts nothing off** but bare containers, whose references are reachable without
them. -/
theorem reachable_or_bare {y : ObjectId} (hy : y ∈ s.reachable) :
    y ∈ s'.reachable ∨ ∃ p, s.get? y = some p ∧ p.content.read = [] ∧
      ∀ t ∈ p.targets, t ∈ s'.reachable := by
  have h' := underway_spliced h ho he
  rw [h.underway.mem_reachable_iff] at hy
  -- induction on the path from the root; a spliced object is bare and hands its targets up
  induction hy with
  | refl =>
    refine .inl (h'.mem_reachable_iff.mpr ?_)
    rw [he.root]
    exact .refl
  | @tail a b _ hab ih =>
    obtain ⟨p, hp, hb⟩ := Scene.exists_get?_of_refers hab
    rcases ih with ha | ⟨q, hq, -, hall⟩
    · have hlink : ∀ t ∈ (editOf [x] (Object.relist (splicedList s read o)) a p).targets,
          t ∈ s'.reachable :=
        fun t ht => (h'.target ha (Scene.refers_of_get? (he.get? hp) ht)).1
      rcases editOf_singleton_cases (Object.relist (splicedList s read o)) ho hp with
        ⟨rfl, rfl, hedit⟩ | ⟨-, hedit⟩
      · rw [hedit] at hlink
        have hentry : ∀ g ∈ splicedList s read p, g ∈ s'.reachable := by
          intro g hg
          refine hlink g (Object.mem_targets_of_mem_children ?_)
          have hlist : p.content.children ≠ [] := by
            intro hnil
            simp [splicedList, hnil] at hg
          rwa [Object.relist, Content.children_withChildren hlist]
        rcases Object.mem_children_or_targets (splicedList s read p) hb with hchild | htarget
        · rcases splicedList_of_mem read s hchild with hkept | ⟨held, hreplace, hheld⟩
          · exact .inl (hentry b hkept)
          · obtain ⟨q, hq, htargets, hread⟩ := bare_of_replacement? hreplace
            exact .inr ⟨q, hq, hread, fun t ht => hentry t (hheld t (htargets ▸ ht))⟩
        · exact .inl (hlink b htarget)
      · rw [hedit] at hlink
        exact .inl (hlink b hb)
    · obtain rfl := Option.some.inj (hp.symm.trans hq)
      exact .inl (hall b hb)

/-- A spliced scene has narrowed. -/
theorem narrows_spliced : Narrows s s' := by
  refine ⟨reachable_spliced ho he, fun hy => ?_⟩
  obtain ⟨a, ha, p, hp, hread⟩ := mem_readByExpressions.mp hy
  rcases reachable_or_bare h ho he ha with hreach | ⟨q, hq, hnone, -⟩
  · refine mem_readByExpressions.mpr ⟨a, hreach, _, he.get? hp, ?_⟩
    unfold editOf
    split
    · show _ ∈ (p.content.withChildren _).read
      rw [Content.read_withChildren]
      exact hread
    · exact hread
  · obtain rfl := Option.some.inj (hp.symm.trans hq)
    rw [hnone] at hread
    cases hread

omit h in
/-- Splicing changes no transform. -/
theorem foldIdle_spliced {y : ObjectId} (hidle : FoldIdle s s.readByExpressions y) :
    FoldIdle s' s.readByExpressions y := by
  intro hunread q hq hstill
  rw [he.object] at hq
  obtain ⟨p, hp, rfl⟩ := Option.map_eq_some_iff.mp hq
  rcases editOf_singleton_cases (Object.relist (splicedList s read o)) ho hp with
    ⟨-, rfl, hedit⟩ | ⟨-, hedit⟩
  · rw [hedit] at hstill ⊢
    exact Content.foldContent?_withChildren (hidle hunread p hp hstill)
  · rw [hedit] at hstill ⊢
    exact hidle hunread p hp hstill

omit he in
/-- A list of shapes with an entry has one after splicing. -/
theorem splicedList_ne_nil {t : ShapeTransform K} {cs : List ObjectId} (hx : x ∈ s.reachable)
    (hc : o.content = .containerShape t cs) (hcs : cs ≠ []) : splicedList s read o ≠ [] := by
  obtain ⟨c, hmem⟩ := List.exists_mem_of_ne_nil cs hcs
  have hshapes : o.content.shapes? = some cs := by
    rw [hc]
    rfl
  rcases splicedList_of_mem read s (children_of_shapes? hshapes ▸ hmem) with
    hkept | ⟨held, hreplace, hheld⟩
  · exact List.ne_nil_of_mem hkept
  · -- a container that is spliced is not dead, so it holds something
    obtain ⟨p, hp, -, hcontent⟩ := exists_of_replacement? hreplace
    have halive := h.noDead x hx o cs ho hshapes c hmem p hp
    rcases hcontent with ⟨-, hcontent⟩ | ⟨hnone, -⟩
    · have hne : held ≠ [] := by
        rintro rfl
        simp [isDead, hcontent] at halive
      obtain ⟨g, hg⟩ := List.exists_mem_of_ne_nil held hne
      exact List.ne_nil_of_mem (hheld g hg)
    · rw [hshapes] at hnone
      cases hnone

omit he in
/-- What stands in a spliced list of shapes was alive. -/
theorem alive_of_mem_splicedList (hx : x ∈ s.reachable)
    (hshapes : o.content.shapes? = some o.content.children) {c : ObjectId}
    (hc : c ∈ splicedList s read o) {p : Object K} (hp : s.get? c = some p) : isDead p = false := by
  rcases mem_splicedList hc with hkept | ⟨d, hd, held, hreplace, hheld⟩
  · exact h.noDead x hx o _ ho hshapes c hkept p hp
  · obtain ⟨q, hq, -, hcontent⟩ := exists_of_replacement? hreplace
    have hdreach :=
      (h.underway.target hx (Scene.refers_of_get? ho (Object.mem_targets_of_mem_children hd))).1
    rcases hcontent with ⟨-, hcontent⟩ | ⟨hnone, -⟩
    · refine h.noDead d hdreach q held hq ?_ c hheld p hp
      rw [hcontent]
      rfl
    · rw [hshapes] at hnone
      cases hnone

/-- Splicing leaves no container dead that was not: what is spliced in is not dead either. -/
theorem noDead_spliced : NoDead s' := by
  intro y hy q shapes hq hshapes c hc r hr
  have hcreach := reachable_spliced ho he ((underway_spliced h ho he).target hy
    (Scene.refers_of_get? hq
      (Object.mem_targets_of_mem_children (children_of_shapes? hshapes ▸ hc)))).1
  have hyreach := reachable_spliced ho he hy
  rw [he.object] at hq hr
  obtain ⟨p, hp, rfl⟩ := Option.map_eq_some_iff.mp hq
  obtain ⟨d, hd, rfl⟩ := Option.map_eq_some_iff.mp hr
  -- the entry was alive
  have halive : isDead d = false := by
    rcases editOf_singleton_cases (Object.relist (splicedList s read o)) ho hp with
      ⟨rfl, rfl, hedit⟩ | ⟨-, hedit⟩
    · rw [hedit] at hshapes
      obtain ⟨rfl, hold⟩ := Content.shapes?_withChildren hshapes
      exact alive_of_mem_splicedList h ho hyreach hold hc hd
    · rw [hedit] at hshapes
      exact h.noDead y hyreach p shapes hp hshapes c hc d hd
  -- and it still is
  rcases editOf_singleton_cases (Object.relist (splicedList s read o)) ho hd with
    ⟨rfl, rfl, hedit⟩ | ⟨-, hedit⟩
  · rw [hedit]
    cases hcontent : d.content with
    | containerShape t cs =>
      have hcs : cs ≠ [] := by
        rintro rfl
        simp [isDead, hcontent] at halive
      have hne : splicedList s read d ≠ [] := splicedList_ne_nil h hd hcreach hcontent hcs
      obtain ⟨e, es, hlist⟩ := List.exists_cons_of_ne_nil hne
      simp [isDead, Object.relist, hcontent, Content.withChildren, hlist]
    | _ => simp [isDead, Object.relist, hcontent, Content.withChildren]
  · rw [hedit]
    exact halive

end Splicing

/-- A step of splicing keeps the scene clean. -/
theorem spliceObject_clean (read : List ObjectId) (x : ObjectId) :
    Editing.Preserves (Clean A rank s₀) (spliceObject read x) := by
  intro s s' done h hstep
  rcases spliceObject_cases hstep with rfl | ⟨o, ho, he⟩
  · exact h
  · exact ⟨underway_spliced h ho he, noDead_spliced h ho he,
      h.folded.narrow (narrows_spliced h ho he) fun _ => foldIdle_spliced ho he⟩

/-! ## Rounds -/

/-- A round keeps the scene clean, as both of its passes do. -/
theorem coalesce_clean : Editing.Preserves (Clean A rank s₀) coalesce := by
  have hpush : Editing.Preserves (Clean A rank s₀) pushDown :=
    .get_bind fun s _ => .sumOver fun x _ => pushObject_clean _ x
  have hsplice : Editing.Preserves (Clean A rank s₀) splice :=
    .get_bind fun s _ => .sumOver fun x _ => spliceObject_clean _ x
  exact hpush.bind fun _ => hsplice.bind fun _ => .pure _

/-- **Nothing is left to do** after the rounds. -/
theorem coalesceFor_settles {limit : Nat} (h : Clean A rank s₀ s)
    (hrun : coalesceFor limit s = .ok done s') : Underway A rank s₀ s' ∧ Settled s' := by
  induction limit generalizing s done with
  | zero => cases hrun
  | succ limit ih =>
    obtain ⟨round, t, hround, hrest⟩ := Editing.exists_of_bind hrun
    have ht := coalesce_clean s t round h hround
    by_cases hnone : round.total = 0
    · rw [if_pos hnone] at hrest
      cases hrest
      obtain ⟨rfl, hpushed, hspliced⟩ := idle_of_coalesce hround hnone
      exact ⟨ht.underway, ht.noDead, ht.folded, hpushed, hspliced⟩
    · rw [if_neg hnone] at hrest
      obtain ⟨others, u, hothers, hdone⟩ := Editing.exists_of_bind hrest
      cases hdone
      exact ih ht hothers

/-- **A reduction leaves nothing to reduce.** -/
theorem reduce_settles (h : s.Ranked A rank) (hroot : A s.root) (hrun : reduce s = .ok done s') :
    Underway A rank s s' ∧ Settled s' := by
  obtain ⟨dropped, t, hdrop, hrest⟩ := Editing.exists_of_bind hrun
  obtain ⟨folded, u, hfold, hrest⟩ := Editing.exists_of_bind hrest
  rw [Editing.get_bind_run] at hrest
  obtain ⟨coalesced, v, hcoalesce, hdone⟩ := Editing.exists_of_bind hrest
  cases hdone
  obtain ⟨ht, htdead⟩ := removeDead_settles (.start h hroot) hdrop
  obtain ⟨hu, hudead, hufolded⟩ := foldTransforms_settles ht htdead hfold
  exact coalesceFor_settles ⟨hu, hudead, hufolded⟩ hcoalesce

/-- **A reduction reaches a fixed point of all its passes.**  Of every scene that is indexed and
reduced, each pass counts nothing on the result and leaves it as it is, and so does a second
reduction. -/
theorem reduce_reaches_fixedPoint {ix : Index} (hix : Index.build s = .ok ix)
    (hrun : reduce s = .ok done s') :
    removeDead s' = .ok {} s' ∧ foldTransforms s' = .ok {} s' ∧ pushDown s' = .ok {} s' ∧
      splice s' = .ok {} s' ∧ ∃ again, reduce s' = .ok again s' ∧ again.total = 0 := by
  have hsound := Index.sound_of_build hix
  obtain ⟨-, hsettled⟩ := reduce_settles hsound.ranked hsound.root_mem hrun
  exact ⟨removeDead_of_noDead hsettled.noDead, foldTransforms_of_settled hsettled,
    pushDown_of_settled hsettled, splice_of_settled hsettled, _, reduce_of_settled hsettled, rfl⟩

/-- The reduced specimen is a fixed point of every pass. -/
theorem specimenReduced_fixedPoint :
    Index.build specimen = .ok specimenIndex ∧
    reduce specimen = .ok ⟨1, 1, 1, 1, 1⟩ specimenReduced ∧
    removeDead specimenReduced = .ok {} specimenReduced ∧
    foldTransforms specimenReduced = .ok {} specimenReduced ∧
    pushDown specimenReduced = .ok {} specimenReduced ∧
    splice specimenReduced = .ok {} specimenReduced ∧
    ∃ again, reduce specimenReduced = .ok again specimenReduced ∧ again.total = 0 :=
  ⟨specimen_build, specimen_reduce, reduce_reaches_fixedPoint specimen_build specimen_reduce⟩

end Reduction
end Diorama
