/-
  Editing a scene step by step.

  Every change replaces objects where they stand: ids, the root and the size stay.
  `Scene.Edited g s s'` says that with `g`, what becomes of each object.  A change is such an edit
  of one object, a change for every id of a list is one of several, and edits compose.

  What is said of an edit object by object carries over to the scene: it stays ranked if no object
  refers higher than before (`Ranked.edited`), and it mirrors the scene before if every object is
  still of its kind (`Ranked.mirrors`).

  A pass is a sum of steps.  What every step preserves, the pass preserves
  (`Editing.Preserves.sumOver`), and what every step costs, the pass costs
  (`Editing.Costs.sumOver`).  A run that fails stops halfway; what every step keeps holds there as
  well (`Editing.Keeps.sumOver`), and the pass fails as its steps do (`Editing.FailsWith.sumOver`).
-/
import Diorama.Proofs.Stillness
import Diorama.Reduction.Editing

namespace Diorama

variable {K : Type}

/-! ## Edits -/

/-- What was put in a place is there. -/
theorem Scene.get?_set_self {s : Scene K} {id : ObjectId} {o : Object K} (h : s.get? id = some o)
    (o' : Object K) : (s.set id o').get? id = some o' := by
  have hlt : id.index < s.objects.size := index_lt_size h
  simp [get?, set, hlt]

/-- All other places are as they were. -/
theorem Scene.get?_set_of_ne {s : Scene K} {id c : ObjectId} (h : c ≠ id) (o' : Object K) :
    (s.set id o').get? c = s.get? c := by
  have hne : id.index ≠ c.index := fun heq => h (ObjectId.index_injective heq).symm
  simp [get?, set, hne]

/-- Nothing but a frozen mark keeps an object from being changed. -/
theorem Scene.frozen_of_changeable {s : Scene K} {id : ObjectId} {o : Object K} {e : SceneError}
    (ho : s.get? id = some o) (h : s.changeable id = .error e) :
    s.isFrozen id = true ∧ e = .frozen id o.kind := by
  unfold changeable at h
  rw [ho] at h
  cases hfrozen : s.isFrozen id with
  | true =>
    simp only [hfrozen, if_true] at h
    cases h
    exact ⟨rfl, rfl⟩
  | false =>
    simp only [hfrozen, Bool.false_eq_true, if_false] at h
    cases h

/-- Every object is replaced in its place; `g` tells by what. -/
structure Scene.Edited (g : ObjectId → Object K → Object K) (s s' : Scene K) : Prop where
  root : s'.root = s.root
  size : s'.size = s.size
  frozen : s'.frozen = s.frozen
  object (id : ObjectId) : s'.get? id = (s.get? id).map (g id)

/-- An edit of the objects in a list. -/
def editOf (ids : List ObjectId) (f : Object K → Object K) (id : ObjectId) (o : Object K) :
    Object K :=
  if id ∈ ids then f o else o

/-- What is listed is edited. -/
theorem editOf_of_mem {ids : List ObjectId} {id : ObjectId} (h : id ∈ ids)
    (f : Object K → Object K) : editOf ids f id = f := by
  funext o
  exact if_pos h

/-- What is not listed is left alone. -/
theorem editOf_of_not_mem {ids : List ObjectId} {id : ObjectId} (h : id ∉ ids)
    (f : Object K → Object K) : editOf ids f id = fun o => o := by
  funext o
  exact if_neg h

/-- An edit of one object makes something of that object and leaves every other one. -/
theorem editOf_singleton_cases {s : Scene K} {x y : ObjectId} {o p : Object K}
    (f : Object K → Object K) (ho : s.get? x = some o) (hp : s.get? y = some p) :
    (y = x ∧ p = o ∧ editOf [x] f y p = f o) ∨ (y ≠ x ∧ editOf [x] f y p = p) := by
  by_cases hy : y = x
  · subst hy
    obtain rfl := Option.some.inj (ho.symm.trans hp)
    exact .inl ⟨rfl, rfl, by rw [editOf_of_mem List.mem_cons_self]⟩
  · exact .inr ⟨hy, by rw [editOf_of_not_mem (by simpa using hy)]⟩

namespace Scene.Edited

variable {s t u : Scene K} {g g' : ObjectId → Object K → Object K}

theorem refl (s : Scene K) : Edited (fun _ o => o) s s := ⟨rfl, rfl, rfl, fun _ => by simp⟩

/-- One edit after the other is one edit. -/
theorem trans (h : Edited g s t) (h' : Edited g' t u) :
    Edited (fun id o => g' id (g id o)) s u := by
  refine ⟨h'.root.trans h.root, h'.size.trans h.size, h'.frozen.trans h.frozen, fun id => ?_⟩
  rw [h'.object, h.object, Option.map_map]
  rfl

/-- An object is where it was, edited. -/
theorem get? (h : Edited g s t) {id : ObjectId} {o : Object K} (ho : s.get? id = some o) :
    t.get? id = some (g id o) := by
  rw [h.object, ho]
  rfl

/-- An edit is known by what it does to the objects that are there. -/
theorem congr (h : Edited g s t) (hg : ∀ id o, s.get? id = some o → g' id o = g id o) :
    Edited g' s t := by
  refine ⟨h.root, h.size, h.frozen, fun id => ?_⟩
  rw [h.object]
  cases ho : s.get? id with
  | none => rfl
  | some o => rw [Option.map_some, Option.map_some, hg id o ho]

end Scene.Edited

/-- An object that is left alone is its own counterpart. -/
theorem Object.Counterpart.refl [Scalar K] (o : Object K) : o.Counterpart Eq id o := by
  refine ⟨?_, .refl _⟩
  simp only [Animator.mapIds_id, List.map_id_fun']
  rfl

namespace Scene.Ranked

variable {A : ObjectId → Prop} {rank : ObjectId → Nat} {s s' : Scene K}
  {g : ObjectId → Object K → Object K} (h : s.Ranked A rank) (he : s.Edited g s')

include h he

/-- A scene stays ranked if its objects refer to lower ones after the edit as before. -/
theorem edited (htargets : ∀ x o, A x → s.get? x = some o → ∀ t ∈ (g x o).targets,
    A t ∧ rank t < rank x) : s'.Ranked A rank := by
  have hlower : ∀ x t, A x → s'.Refers x t → A t ∧ rank t < rank x := by
    intro x t hx hxt
    obtain ⟨o, ho⟩ := h.object hx
    rw [Refers, targetsOf_of_get? (he.get? ho)] at hxt
    exact htargets x o hx ho t hxt
  refine ⟨fun hx => ?_, fun ha hab => (hlower _ _ ha hab).1, fun ha hab => (hlower _ _ ha hab).2,
    fun hx => he.size ▸ h.bounded hx⟩
  obtain ⟨o, ho⟩ := h.object hx
  exact ⟨_, he.get? ho⟩

omit he in
/-- A scene stays ranked if one object is edited and refers to nothing new but what it referred to
through others. -/
theorem edited_one {x : ObjectId} {o : Object K} {f : Object K → Object K} (ho : s.get? x = some o)
    (he : s.Edited (editOf [x] f) s')
    (htargets : A x → ∀ t ∈ (f o).targets, t ∈ o.targets ∨ ∃ c ∈ o.targets, s.Refers c t) :
    s'.Ranked A rank := by
  have hlower : ∀ y p, A y → s.get? y = some p → ∀ t ∈ p.targets, A t ∧ rank t < rank y :=
    fun y p hy hp t ht => ⟨h.closed hy (Scene.refers_of_get? hp ht),
      h.descends hy (Scene.refers_of_get? hp ht)⟩
  refine h.edited he fun y p hy hp t ht => ?_
  rcases editOf_singleton_cases f ho hp with ⟨rfl, rfl, hedit⟩ | ⟨-, hedit⟩
  · rw [hedit] at ht
    rcases htargets hy t ht with hold | ⟨c, hc, hct⟩
    · exact hlower y p hy hp t hold
    · -- a reference of a reference is lower still
      obtain ⟨hcA, hcy⟩ := hlower y p hy hp c hc
      exact ⟨h.closed hcA hct, Nat.lt_trans (h.descends hcA hct) hcy⟩
  · rw [hedit] at ht
    exact hlower y p hy hp t ht

/-- An edited scene mirrors the one before if its objects are counterparts. -/
theorem mirrors [Scalar K]
    (hlike : ∀ x o, A x → s.get? x = some o → o.Counterpart Eq id (g x o)) :
    s.Mirrors Eq id A rank s' where
  ranked := h
  bounded := fun hx => he.size ▸ h.bounded hx
  counterpart := fun hx ho => ⟨_, he.get? ho, hlike _ _ hx ho⟩

end Scene.Ranked

/-- What stands in the place of an object is what the edit makes of it. -/
theorem Facing.eq_of_edited [Scalar K] {A : ObjectId → Prop} {s s' : Scene K}
    {g : ObjectId → Object K → Object K} (he : s.Edited g s') {x : ObjectId} {o o' : Object K}
    (hf : Facing Eq id A s s' x o o') : o' = g x o :=
  Option.some.inj (hf.right.symm.trans (he.get? hf.left))

/-! ## Runs -/

namespace Editing

variable {α β : Type} {s s' : Scene K}

/-- A run that begins by reading the scene reads the scene it starts in. -/
theorem get_bind_run (f : Scene K → Editing K α) (s : Scene K) : (get >>= f) s = f s s := rfl

/-- A run goes on in the scene that its first step leaves. -/
theorem bind_run_of_ok {x : Editing K α} {f : α → Editing K β} {a : α} (h : x s = .ok a s') :
    (x >>= f) s = f a s' := by
  simp only [bind, EStateM.bind, h]

/-- A run stops where its first step fails. -/
theorem bind_run_of_error {x : Editing K α} {f : α → Editing K β} {e : SceneError}
    (h : x s = .error e s') : (x >>= f) s = .error e s' := by
  simp only [bind, EStateM.bind, h]

/-- A run that succeeds has a scene in between. -/
theorem exists_of_bind {x : Editing K α} {f : α → Editing K β} {b : β}
    (h : (x >>= f) s = .ok b s') : ∃ a t, x s = .ok a t ∧ f a t = .ok b s' := by
  simp only [bind, EStateM.bind] at h
  split at h
  · rename_i a t hx
    exact ⟨a, t, hx, h⟩
  · nomatch h

/-- A run fails in its first step or after it. -/
theorem exists_of_bind_error {x : Editing K α} {f : α → Editing K β} {e : SceneError}
    (h : (x >>= f) s = .error e s') :
    x s = .error e s' ∨ ∃ a t, x s = .ok a t ∧ f a t = .error e s' := by
  cases hrun : x s with
  | ok a t =>
    rw [bind_run_of_ok hrun] at h
    exact .inr ⟨a, t, rfl, h⟩
  | error e' t =>
    rw [bind_run_of_error hrun] at h
    cases h
    exact .inl rfl

theorem eq_of_pure {a b : α} (h : (pure a : Editing K α) s = .ok b s') : s' = s := by
  cases h
  rfl

/-- What holds before a run holds after it, if the run succeeds. -/
def Preserves (P : Scene K → Prop) (x : Editing K α) : Prop :=
  ∀ s s' a, P s → x s = .ok a s' → P s'

namespace Preserves

variable {P : Scene K → Prop}

theorem pure (a : α) : Preserves P (Pure.pure a : Editing K α) := by
  intro s s' b h hrun
  rw [eq_of_pure hrun]
  exact h

/-- What is preserved step by step is preserved. -/
theorem bind {x : Editing K α} {f : α → Editing K β} (hx : Preserves P x)
    (hf : ∀ a, Preserves P (f a)) : Preserves P (x >>= f) := by
  intro s s' b h hrun
  obtain ⟨a, t, hfirst, hrest⟩ := exists_of_bind hrun
  exact hf a t s' b (hx s t a h hfirst) hrest

/-- A run that begins by reading the scene. -/
theorem get_bind {f : Scene K → Editing K β} (hf : ∀ s, P s → Preserves P (f s)) :
    Preserves P (get >>= f) := by
  intro s s' b h hrun
  obtain ⟨_, _, ⟨⟩, hrest⟩ := exists_of_bind hrun
  exact hf s h s s' b h hrest

/-- What every step preserves, a pass preserves. -/
theorem sumOver {step : ObjectId → Editing K Reduction} {ids : List ObjectId}
    (hstep : ∀ id ∈ ids, Preserves P (step id)) : Preserves P (Editing.sumOver step ids) := by
  induction ids with
  | nil => exact pure _
  | cons id ids ih =>
    refine (hstep id List.mem_cons_self).bind fun first => ?_
    refine (ih fun c hc => hstep c (List.mem_cons_of_mem _ hc)).bind fun others => ?_
    exact pure _

end Preserves

/-- A run that succeeds keeps the property, and every edit that it counts costs energy. -/
def Costs (P : Scene K → Prop) (E : Scene K → Nat) (x : Editing K Reduction) : Prop :=
  ∀ s s' done, P s → x s = .ok done s' → P s' ∧ E s' + done.total ≤ E s

namespace Costs

variable {P : Scene K → Prop} {E : Scene K → Nat}

/-- To do nothing costs nothing. -/
theorem nothing : Costs P E (Pure.pure {}) := by
  intro s s' done h hrun
  cases hrun
  exact ⟨h, Nat.le_refl _⟩

/-- What two runs in a row cost adds up. -/
theorem add {x y : Editing K Reduction} (hx : Costs P E x) (hy : Costs P E y) :
    Costs P E (do
      let a ← x
      let b ← y
      return a + b) := by
  intro s s' done h hrun
  obtain ⟨a, t, hfirst, hrest⟩ := exists_of_bind hrun
  obtain ⟨b, u, hsecond, hdone⟩ := exists_of_bind hrest
  cases hdone
  obtain ⟨ht, hpaid⟩ := hx s t a h hfirst
  obtain ⟨hu, hpaid'⟩ := hy t s' b ht hsecond
  refine ⟨hu, ?_⟩
  rw [Reduction.total_add]
  omega

/-- What the steps of a pass cost adds up. -/
theorem sumOver {step : ObjectId → Editing K Reduction} {ids : List ObjectId}
    (hstep : ∀ id ∈ ids, Costs P E (step id)) : Costs P E (Editing.sumOver step ids) := by
  induction ids with
  | nil => exact nothing
  | cons id ids ih =>
    exact (hstep id List.mem_cons_self).add (ih fun c hc => hstep c (List.mem_cons_of_mem _ hc))

end Costs

/-- A change puts what it makes of an object in the place of the object. -/
theorem eq_set_of_change {id : ObjectId} {f : Object K → Object K}
    (h : change id f s = .ok () s') :
    ∃ o, s.get? id = some o ∧ s.isFrozen id = false ∧ s' = s.set id (f o) := by
  unfold change Scene.update Scene.changeable at h
  -- a change is refused where there is no object and where the object is frozen
  cases ho : s.get? id with
  | none => simp [ho, bind, Except.bind] at h
  | some o =>
    cases hfrozen : s.isFrozen id with
    | true => simp [ho, hfrozen, bind, Except.bind] at h
    | false =>
      simp only [ho, hfrozen, bind, Except.bind, pure, Except.pure, Bool.false_eq_true, if_false]
        at h
      cases h
      exact ⟨o, rfl, rfl, rfl⟩

/-- A change that fails leaves the scene as it is. -/
theorem eq_of_change_error {id : ObjectId} {f : Object K → Object K} {e : SceneError}
    (h : change id f s = .error e s') : s' = s ∧ s.changeable id = .error e := by
  unfold change Scene.update at h
  cases hobject : s.changeable id with
  | ok o =>
    rw [hobject] at h
    cases h
  | error e' =>
    rw [hobject] at h
    cases h
    exact ⟨rfl, rfl⟩

/-- A change edits one object. -/
theorem edited_of_change {id : ObjectId} {f : Object K → Object K}
    (h : change id f s = .ok () s') : s.Edited (editOf [id] f) s' := by
  obtain ⟨o, ho, -, rfl⟩ := eq_set_of_change h
  refine ⟨rfl, by simp [Scene.size, Scene.set], rfl, fun c => ?_⟩
  by_cases hc : c = id
  · subst hc
    rw [ho, Scene.get?_set_self ho, editOf_of_mem List.mem_cons_self]
    rfl
  · rw [Scene.get?_set_of_ne hc, editOf_of_not_mem (by simpa using hc)]
    simp

/-- A change for every id of a list edits the objects of the list. -/
theorem edited_of_forM {ids : List ObjectId} {f : Object K → Object K} (hnodup : ids.Nodup)
    (h : ids.forM (fun id => change id f) s = .ok () s') : s.Edited (editOf ids f) s' := by
  induction ids generalizing s with
  | nil =>
    rw [eq_of_pure h]
    exact .refl s
  | cons id ids ih =>
    obtain ⟨hnew, hnodup⟩ := List.nodup_cons.mp hnodup
    obtain ⟨⟨⟩, t, hfirst, hrest⟩ := exists_of_bind h
    refine ((edited_of_change hfirst).trans (ih hnodup hrest)).congr fun c o _ => ?_
    -- no object is edited twice
    by_cases hc : c = id
    · subst hc
      simp [editOf, hnew]
    · simp [editOf, hc]

/-! ## Where runs stop -/

/-- The scene in which a run stops. -/
def left (x : Editing K α) (s : Scene K) : Scene K :=
  match x s with
  | .ok _ t => t
  | .error _ t => t

theorem left_of_ok {x : Editing K α} {a : α} {t : Scene K} (h : x s = .ok a t) : x.left s = t := by
  rw [left, h]

theorem left_of_error {x : Editing K α} {e : SceneError} {t : Scene K} (h : x s = .error e t) :
    x.left s = t := by
  rw [left, h]

/-- Where a run stops that goes on. -/
theorem left_bind_of_ok {x : Editing K α} {f : α → Editing K β} {a : α} {t : Scene K}
    (h : x s = .ok a t) : (x >>= f).left s = (f a).left t := by
  rw [left, bind_run_of_ok h, left]

/-- Where a run stops that fails in its first step. -/
theorem left_bind_of_error {x : Editing K α} {f : α → Editing K β} {e : SceneError} {t : Scene K}
    (h : x s = .error e t) : (x >>= f).left s = t := by
  rw [left, bind_run_of_error h]

/-- A run that goes on to count what it did stops in the same scene. -/
theorem left_of_counted {x : Editing K β} {y : Editing K α} {b : β}
    (h : x s = (y >>= fun _ => pure b) s) : x.left s = y.left s := by
  cases hrun : y s with
  | ok a t =>
    rw [bind_run_of_ok hrun] at h
    rw [left_of_ok h, left_of_ok hrun]
  | error e t =>
    rw [bind_run_of_error hrun] at h
    rw [left_of_error h, left_of_error hrun]

/-- A change that is refused changes nothing. -/
theorem left_change (id : ObjectId) (f : Object K → Object K) (s : Scene K) :
    (change id f).left s = s ∨
      ∃ o, s.get? id = some o ∧ s.isFrozen id = false ∧ (change id f).left s = s.set id (f o) := by
  cases hrun : change id f s with
  | ok _ t =>
    obtain ⟨o, ho, hfree, rfl⟩ := eq_set_of_change hrun
    exact .inr ⟨o, ho, hfree, left_of_ok hrun⟩
  | error e t =>
    obtain ⟨rfl, -⟩ := eq_of_change_error hrun
    exact .inl (left_of_error hrun)

/-- What holds before a run holds where it stops, whether it succeeds or fails. -/
def Keeps (P : Scene K → Prop) (x : Editing K α) : Prop := ∀ s, P s → P (x.left s)

namespace Keeps

variable {P : Scene K → Prop}

theorem pure (a : α) : Keeps P (Pure.pure a : Editing K α) := fun _ h => h

theorem throw (e : SceneError) : Keeps P (MonadExcept.throw e : Editing K α) := fun _ h => h

/-- A run keeps what its first step keeps and what keeps being kept. -/
theorem bind {x : Editing K α} {f : α → Editing K β} (hx : Keeps P x) (hf : ∀ a, Keeps P (f a)) :
    Keeps P (x >>= f) := by
  intro s h
  have hfirst := hx s h
  cases hrun : x s with
  | ok a t =>
    rw [left_of_ok hrun] at hfirst
    rw [left_bind_of_ok hrun]
    exact hf a t hfirst
  | error e t =>
    rw [left_of_error hrun] at hfirst
    rwa [left_bind_of_error hrun]

/-- A run that begins by reading the scene. -/
theorem get_bind {f : Scene K → Editing K β} (hf : ∀ s, Keeps P (f s)) : Keeps P (get >>= f) :=
  fun s h => hf s s h

/-- What is kept at every entry is kept by going through the list. -/
theorem forM {ids : List ObjectId} {step : ObjectId → Editing K Unit}
    (hstep : ∀ id ∈ ids, Keeps P (step id)) : Keeps P (ids.forM step) := by
  induction ids with
  | nil => exact pure _
  | cons id ids ih =>
    exact (hstep id List.mem_cons_self).bind fun _ => ih fun c hc =>
      hstep c (List.mem_cons_of_mem _ hc)

/-- What every step keeps, a pass keeps. -/
theorem sumOver {step : ObjectId → Editing K Reduction} {ids : List ObjectId}
    (hstep : ∀ id ∈ ids, Keeps P (step id)) : Keeps P (Editing.sumOver step ids) := by
  induction ids with
  | nil => exact pure _
  | cons id ids ih =>
    refine (hstep id List.mem_cons_self).bind fun first => ?_
    refine (ih fun c hc => hstep c (List.mem_cons_of_mem _ hc)).bind fun others => ?_
    exact pure _

end Keeps

/-- Where the run fails, the scene in which it stops and the error are as said. -/
def FailsWith (Q : Scene K → SceneError → Prop) (x : Editing K α) : Prop :=
  ∀ s e t, x s = .error e t → Q t e

namespace FailsWith

variable {Q : Scene K → SceneError → Prop}

theorem pure (a : α) : FailsWith Q (Pure.pure a : Editing K α) := by
  intro s e t hrun
  cases hrun

/-- A run fails as its first step does, or as it does afterwards. -/
theorem bind {x : Editing K α} {f : α → Editing K β} (hx : FailsWith Q x)
    (hf : ∀ a, FailsWith Q (f a)) : FailsWith Q (x >>= f) := by
  intro s e t hrun
  rcases exists_of_bind_error hrun with hfirst | ⟨a, u, -, hrest⟩
  · exact hx s e t hfirst
  · exact hf a u e t hrest

theorem get_bind {f : Scene K → Editing K β} (hf : ∀ s, FailsWith Q (f s)) :
    FailsWith Q (get >>= f) :=
  fun s e t hrun => hf s s e t hrun

/-- Going through a list fails as one of the steps does. -/
theorem forM {ids : List ObjectId} {step : ObjectId → Editing K Unit}
    (hstep : ∀ id ∈ ids, FailsWith Q (step id)) : FailsWith Q (ids.forM step) := by
  induction ids with
  | nil => exact pure _
  | cons id ids ih =>
    exact (hstep id List.mem_cons_self).bind fun _ => ih fun c hc =>
      hstep c (List.mem_cons_of_mem _ hc)

/-- A pass fails as its steps do. -/
theorem sumOver {step : ObjectId → Editing K Reduction} {ids : List ObjectId}
    (hstep : ∀ id ∈ ids, FailsWith Q (step id)) : FailsWith Q (Editing.sumOver step ids) := by
  induction ids with
  | nil => exact pure _
  | cons id ids ih =>
    refine (hstep id List.mem_cons_self).bind fun first => ?_
    refine (ih fun c hc => hstep c (List.mem_cons_of_mem _ hc)).bind fun others => ?_
    exact pure _

/-- A change fails where the object may not be changed. -/
theorem change (id : ObjectId) (f : Object K → Object K) :
    FailsWith (fun t e => t.changeable id = .error e) (change id f) := by
  intro s e t hrun
  obtain ⟨rfl, hrefused⟩ := eq_of_change_error hrun
  exact hrefused

end FailsWith

/-! ## Where runs fail -/

/-- A pass that fails does so at one step, after the steps before it. -/
theorem exists_of_sumOver_error {step : ObjectId → Editing K Reduction} {ids : List ObjectId}
    {e : SceneError} (h : sumOver step ids s = .error e s') :
    ∃ before id after done mid, ids = before ++ id :: after ∧ sumOver step before s = .ok done mid ∧
      step id mid = .error e s' := by
  induction ids generalizing s with
  | nil => cases h
  | cons id ids ih =>
    rcases exists_of_bind_error h with hfirst | ⟨first, t, hfirst, hrest⟩
    · exact ⟨[], id, ids, {}, s, rfl, rfl, hfirst⟩
    · rcases exists_of_bind_error hrest with hothers | ⟨_, _, -, hpure⟩
      · obtain ⟨before, x, after, done, mid, rfl, hbefore, hx⟩ := ih hothers
        refine ⟨id :: before, x, after, first + done, mid, rfl, ?_, hx⟩
        rw [sumOver, bind_run_of_ok hfirst, bind_run_of_ok hbefore]
        rfl
      · cases hpure

/-- Changes of several objects fail at one of them: those before it are changed, and it may not
be. -/
theorem exists_of_forM_error {ids : List ObjectId} {f : Object K → Object K} {e : SceneError}
    (h : ids.forM (fun id => Editing.change id f) s = .error e s') :
    ∃ written id rest, ids = written ++ id :: rest ∧
      written.forM (fun id => Editing.change id f) s = .ok () s' ∧ s'.changeable id = .error e := by
  induction ids generalizing s with
  | nil => cases h
  | cons id ids ih =>
    rcases exists_of_bind_error h with hfirst | ⟨⟨⟩, t, hfirst, hrest⟩
    · obtain ⟨rfl, hrefused⟩ := eq_of_change_error hfirst
      exact ⟨[], id, ids, rfl, rfl, hrefused⟩
    · obtain ⟨written, x, rest, rfl, hwritten, hrefused⟩ := ih hrest
      refine ⟨id :: written, x, rest, rfl, ?_, hrefused⟩
      exact (bind_run_of_ok hfirst).trans hwritten

end Editing
end Diorama
