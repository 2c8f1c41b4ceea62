/-
  The copy of a scene as a quotient.

  Classes of objects refer to each other without cycles: related objects have equally many objects
  below them, counted along every path (`related_weight`).  This is where leastness of the classes
  is needed.  A coarser congruence might well close a cycle, but "related, and equally heavy" is a
  congruence too, so the least one is contained in it.

  The walk that orders the copies keeps one invariant (`Copying`): what the representatives entered
  so far refer to has a representative that was entered or is still to be visited.  In the end the
  order holds the class of the root and is closed under references.
-/
import Diorama.Merge.Copy
import Diorama.Proofs.LeastCongruence

namespace Diorama

/-! ## Weights -/

/-- The number of objects below an object along every path, the object included; cut off at a
depth. -/
def Scene.weight {K : Type} (s : Scene K) : Nat → ObjectId → Nat
  | 0, _ => 1
  | n + 1, id => ((s.targetsOf id).map (s.weight n)).foldr (· + ·) 1

/-- The weight of an indexed object. -/
def Index.weight {K : Type} (s : Scene K) (ix : Index) (id : ObjectId) : Nat :=
  s.weight ix.size id

theorem foldr_add_pos (l : List Nat) : 0 < l.foldr (· + ·) 1 := by
  induction l with
  | nil => exact Nat.one_pos
  | cons x l ih => exact Nat.add_pos_right x ih

/-- A sum with one added is greater than each of its terms. -/
theorem lt_foldr_add {l : List Nat} {x : Nat} (h : x ∈ l) : x < l.foldr (· + ·) 1 := by
  induction l with
  | nil => nomatch h
  | cons y l ih =>
    have hpos := foldr_add_pos l
    rw [List.foldr_cons]
    rcases List.mem_cons.mp h with rfl | h
    · omega
    · have := ih h
      omega

namespace Index

variable {K : Type} {s : Scene K} {ix : Index}

/-- Beyond the rank of an object the depth makes no difference. -/
theorem weight_stable (hix : Sound s ix) (n : Nat) :
    ∀ id, id ∈ ix.ids → ix.rank id < n → s.weight (n + 1) id = s.weight n id := by
  induction n with
  | zero =>
    intro id _ hlt
    exact absurd hlt (Nat.not_lt_zero _)
  | succ n ih =>
    intro id hid hlt
    have hbelow : (s.targetsOf id).map (s.weight (n + 1)) = (s.targetsOf id).map (s.weight n) := by
      refine List.map_congr_left fun t ht => ?_
      obtain ⟨htid, hdrop⟩ := hix.rank_lt hid ht
      exact ih t htid (by omega)
    show ((s.targetsOf id).map (s.weight (n + 1))).foldr (· + ·) 1 = _
    rw [hbelow]
    rfl

/-- An object weighs one more than everything it refers to together. -/
theorem weight_eq (hix : Sound s ix) {id : ObjectId} (hid : id ∈ ix.ids) :
    ix.weight s id = ((s.targetsOf id).map (ix.weight s)).foldr (· + ·) 1 :=
  (weight_stable hix ix.size id hid (hix.rank_lt_size hid)).symm

/-- What an object refers to weighs less. -/
theorem weight_lt (hix : Sound s ix) {a b : ObjectId} (ha : a ∈ ix.ids) (hab : s.Refers a b) :
    ix.weight s b < ix.weight s a := by
  rw [weight_eq hix ha]
  exact lt_foldr_add (List.mem_map_of_mem hab)

end Index

/-! ## Related objects -/

/-- The key of an object is its content and its animators, with words for scalars and with renamed
ids. -/
theorem Object.eq_of_mergeKey? {K : Type} [Scalar K] {g : ObjectId → ObjectId} {o : Object K}
    {k : MergeKey} (h : o.mergeKey? g = some k) :
    k = ⟨(o.content.mapIds g).mapScalars Scalar.word, o.attached.animators.map (·.mapIds g)⟩ := by
  unfold Object.mergeKey? at h
  split at h
  · exact (Option.some.inj h).symm
  · nomatch h

/-- Equal keys refer to the same classes. -/
theorem Object.targets_of_mergeKey? {K : Type} [Scalar K] {g : ObjectId → ObjectId}
    {o o' : Object K} {k : MergeKey} (h : o.mergeKey? g = some k) (h' : o'.mergeKey? g = some k) :
    o.targets.map g = o'.targets.map g := by
  have heq := (Object.eq_of_mergeKey? h).symm.trans (Object.eq_of_mergeKey? h')
  obtain ⟨hcontent, hanimators⟩ := MergeKey.mk.inj heq
  have hreferences : (o.content.mapIds g).references = (o'.content.mapIds g).references := by
    rw [← Content.references_mapScalars Scalar.word, hcontent, Content.references_mapScalars]
  have hanimatorReferences :
      (o.mapIds g).animatorReferences = (o'.mapIds g).animatorReferences := by
    simp only [Object.animatorReferences, Object.mapIds, Attachments.mapIds, hanimators]
  rw [← Object.targets_mapIds, ← Object.targets_mapIds]
  simp only [Object.targets, Object.references, hanimatorReferences]
  simp only [Object.mapIds, hreferences]

namespace Merge

variable {K : Type} [Scalar K] {s : Scene K} {ix : Index} {settings : OptimizerSettings}

/-- Related objects refer to related objects. -/
theorem related_targets (hix : Index.Sound s ix) {E : Setoid Nat}
    (hE : IsLeast {E | IsCongruence s ix settings E} E) {p q : Nat} (hpq : E p q)
    {o o' : Object K} (hp : objectAt? s ix p = some o) (hq : objectAt? s ix q = some o') :
    o.targets.map (classId ix E) = o'.targets.map (classId ix E) := by
  rcases forced_of_isLeast hix.nodup hE hpq with rfl | ⟨k, hkp, hkq⟩
  · rw [Option.some.inj (hp.symm.trans hq)]
  · obtain ⟨x, hx, -, hkx⟩ := exists_object_of_keyUnder hkp
    obtain ⟨y, hy, -, hky⟩ := exists_object_of_keyUnder hkq
    obtain rfl := Option.some.inj (hp.symm.trans hx)
    obtain rfl := Option.some.inj (hq.symm.trans hy)
    exact Object.targets_of_mergeKey? hkx hky

/-- The weight of the object at a position. -/
def weightAt (s : Scene K) (ix : Index) (p : Nat) : Option Nat := ix.ids[p]?.map (ix.weight s)

omit [Scalar K] in
/-- Naming objects by classes of equally heavy objects keeps weights. -/
theorem weight_classId {F : Setoid Nat}
    (hF : ∀ p q, F p q → weightAt s ix p = weightAt s ix q) (id : ObjectId) :
    ix.weight s (classId ix F id) = ix.weight s id := by
  cases hpos : ix.position? id with
  | none => simp [classId, hpos]
  | some p =>
    have hweight := hF p _ (related_least F p)
    rw [weightAt, weightAt, Index.position?_eq_some hpos, classId_of_position? F hpos] at hweight
    exact (Option.some.inj hweight).symm

omit [Scalar K] in
/-- The weight in a position is computed from the object there. -/
theorem weightAt_of_objectAt? (hix : Index.Sound s ix) {p : Nat} {o : Object K}
    (h : objectAt? s ix p = some o) :
    weightAt s ix p = some ((o.targets.map (ix.weight s)).foldr (· + ·) 1) := by
  obtain ⟨id, hid, hget⟩ := Option.bind_eq_some_iff.mp h
  rw [weightAt, hid, Option.map_some, Index.weight_eq hix (List.mem_of_getElem? hid),
    Scene.targetsOf_of_get? hget]

/-- **Related objects are equally heavy**, so classes refer to each other without cycles. -/
theorem related_weight (hix : Index.Sound s ix) {E : Setoid Nat}
    (hE : IsLeast {E | IsCongruence s ix settings E} E) {p q : Nat} (hpq : E p q) :
    weightAt s ix p = weightAt s ix q := by
  let F : Setoid Nat := E ⊓ Setoid.ker (weightAt s ix)
  have hFE : F ≤ E := inf_le_left
  have hsame : ∀ x y, F x y → weightAt s ix x = weightAt s ix y := fun x y hxy => hxy.2
  have hF : IsCongruence s ix settings F := by
    intro x y k hx hy
    refine ⟨?_, ?_⟩
    · -- the keys are equal under the coarser relation as well
      refine hE.1 x y (k.mapIds (classId ix E)) ?_ ?_
      · rw [keyUnder_eq_map hix.nodup hFE, hx]
        rfl
      · rw [keyUnder_eq_map hix.nodup hFE, hy]
        rfl
    · obtain ⟨o, ho, -, hko⟩ := exists_object_of_keyUnder hx
      obtain ⟨o', ho', -, hko'⟩ := exists_object_of_keyUnder hy
      have hweights : o.targets.map (ix.weight s) = o'.targets.map (ix.weight s) := by
        have hcomp : ix.weight s ∘ classId ix F = ix.weight s := funext (weight_classId hsame)
        have htargets := congrArg (List.map (ix.weight s)) (Object.targets_of_mergeKey? hko hko')
        rwa [List.map_map, List.map_map, hcomp] at htargets
      show weightAt s ix x = weightAt s ix y
      rw [weightAt_of_objectAt? hix ho, weightAt_of_objectAt? hix ho', hweights]
  exact (hE.2 hF hpq).2

/-! ## The walk over classes -/

omit [Scalar K] in
/-- Copies are made of all that an object refers to. -/
theorem mem_copyOrder {o : Object K} {t : ObjectId} : t ∈ o.copyOrder ↔ t ∈ o.targets := by
  unfold Object.copyOrder
  split
  · exact Iff.rfl
  · simp only [Object.targets, Object.references, List.map_append, List.mem_append]
    exact or_comm

/-- The representatives whose copies are still to be finished. -/
def finishing : List CopyTask → List Nat
  | [] => []
  | .visit _ :: rest => finishing rest
  | .finish r :: rest => r :: finishing rest

/-- What is to be finished after tasks in a row. -/
theorem finishing_append (tasks rest : List CopyTask) :
    finishing (tasks ++ rest) = finishing tasks ++ finishing rest := by
  induction tasks with
  | nil => rfl
  | cons task tasks ih =>
    cases task with
    | visit id => exact ih
    | finish r => exact congrArg (r :: ·) ih

theorem finishing_visits (ids : List ObjectId) : finishing (ids.map .visit) = [] := by
  induction ids with
  | nil => rfl
  | cons id ids ih => exact ih

/-- The class of an object was entered. -/
def Covered (ix : Index) (c : Classes) (entered : List Nat) (id : ObjectId) : Prop :=
  ∃ p, ix.position? id = some p ∧ c.representative p ∈ entered

/-- The state of the walk: each representative was entered once and is finished or to be finished,
and what it refers to is covered or still to be visited. -/
structure Copying (s : Scene K) (ix : Index) (c : Classes) (tasks : List CopyTask)
    (entered finished : List Nat) : Prop where
  nodup : entered.Nodup
  finished : (finished ++ finishing tasks).Perm entered
  object : ∀ r ∈ entered, ∃ id o, ix.ids[r]? = some id ∧ s.get? id = some o
  root : Covered ix c entered s.root ∨ .visit s.root ∈ tasks
  followed : ∀ r ∈ entered, ∀ id t, ix.ids[r]? = some id → s.Refers id t →
    Covered ix c entered t ∨ .visit t ∈ tasks

namespace Copying

variable {c : Classes} {rest : List CopyTask} {entered finished : List Nat}

omit [Scalar K]

/-- A representative is finished when its turn comes. -/
theorem finish_step {r : Nat} (h : Copying s ix c (.finish r :: rest) entered finished) :
    Copying s ix c rest entered (finished ++ [r]) where
  nodup := h.nodup
  finished := by simpa [finishing] using h.finished
  object := h.object
  root := by simpa using h.root
  followed := fun r' hr' id t hid ht => by simpa using h.followed r' hr' id t hid ht

/-- An object whose representative was entered is passed over. -/
theorem seen_step {id : ObjectId} {p : Nat} (hpos : ix.position? id = some p)
    (hseen : c.representative p ∈ entered)
    (h : Copying s ix c (.visit id :: rest) entered finished) :
    Copying s ix c rest entered finished := by
  -- the object that was to be visited is covered
  have hshort : ∀ t, Covered ix c entered t ∨ .visit t ∈ CopyTask.visit id :: rest →
      Covered ix c entered t ∨ .visit t ∈ rest := by
    rintro t (ht | ht)
    · exact Or.inl ht
    · rcases List.mem_cons.mp ht with heq | ht
      · obtain rfl := CopyTask.visit.inj heq
        exact Or.inl ⟨p, hpos, hseen⟩
      · exact Or.inr ht
  exact ⟨h.nodup, h.finished, h.object, hshort _ h.root,
    fun r hr a t ha ht => hshort t (h.followed r hr a t ha ht)⟩

/-- A representative is entered once, and its references are visited first. -/
theorem enter_step {id rid : ObjectId} {p : Nat} {o : Object K}
    (hpos : ix.position? id = some p) (hnew : c.representative p ∉ entered)
    (hrid : ix.ids[c.representative p]? = some rid) (hget : s.get? rid = some o)
    (h : Copying s ix c (.visit id :: rest) entered finished) :
    Copying s ix c (o.copyOrder.map .visit ++ .finish (c.representative p) :: rest)
      (entered ++ [c.representative p]) finished := by
  -- what was covered or to be visited still is
  have hmove : ∀ t, Covered ix c entered t ∨ .visit t ∈ CopyTask.visit id :: rest →
      Covered ix c (entered ++ [c.representative p]) t ∨
        .visit t ∈ o.copyOrder.map .visit ++ CopyTask.finish (c.representative p) :: rest := by
    rintro t (⟨q, hq, hmem⟩ | ht)
    · exact Or.inl ⟨q, hq, List.mem_append_left _ hmem⟩
    · rcases List.mem_cons.mp ht with heq | ht
      · obtain rfl := CopyTask.visit.inj heq
        exact Or.inl ⟨p, hpos, List.mem_append_right _ List.mem_cons_self⟩
      · exact Or.inr (List.mem_append_right _ (List.mem_cons_of_mem _ ht))
  refine ⟨?_, ?_, ?_, hmove _ h.root, ?_⟩
  · refine List.nodup_append.mpr ⟨h.nodup, List.nodup_singleton _, ?_⟩
    rintro a ha b hb rfl
    rw [List.mem_singleton.mp hb] at ha
    exact hnew ha
  · rw [finishing_append, finishing_visits, List.nil_append]
    show (finished ++ c.representative p :: finishing rest).Perm _
    exact List.perm_middle.trans
      ((h.finished.cons (c.representative p)).trans (List.perm_append_singleton _ _).symm)
  · intro r hr
    rcases List.mem_append.mp hr with hr | hr
    · exact h.object r hr
    · rw [List.mem_singleton.mp hr]
      exact ⟨rid, o, hrid, hget⟩
  · intro r hr a t ha ht
    rcases List.mem_append.mp hr with hr | hr
    · exact hmove t (h.followed r hr a t ha ht)
    · rw [List.mem_singleton.mp hr, hrid] at ha
      obtain rfl := Option.some.inj ha
      rw [Scene.Refers, Scene.targetsOf_of_get? hget] at ht
      exact Or.inr (List.mem_append_left _ (List.mem_map_of_mem (mem_copyOrder.mpr ht)))

end Copying

omit [Scalar K] in
/-- A walk that ends ends in a state with nothing left to do. -/
theorem copying_of_copyWalk {c : Classes} {tasks : List CopyTask}
    {entered finished order : List Nat} (hwalk : copyWalk s ix c tasks entered finished = .ok order)
    (h : Copying s ix c tasks entered finished) :
    ∃ entered', Copying s ix c [] entered' order := by
  fun_induction copyWalk s ix c tasks entered finished with
  | case1 entered finished =>
    obtain rfl := Except.ok.inj hwalk
    exact ⟨entered, h⟩
  | case2 entered finished rest r ih => exact ih hwalk h.finish_step
  | case3 => nomatch hwalk
  | case4 entered finished rest id p hpos hseen ih => exact ih hwalk (h.seen_step hpos hseen)
  | case5 => nomatch hwalk
  | case6 => nomatch hwalk
  | case7 => nomatch hwalk
  | case8 entered finished rest id p hpos hnew rid hrid o hget _ ih =>
    exact ih hwalk (h.enter_step hpos hnew hrid hget)

/-- The order holds one representative for every class that the root reaches. -/
structure Ordered (s : Scene K) (ix : Index) (c : Classes) (order : List Nat) : Prop where
  nodup : order.Nodup
  object : ∀ r ∈ order, ∃ id o, ix.ids[r]? = some id ∧ s.get? id = some o
  root : Covered ix c order s.root
  closed : ∀ r ∈ order, ∀ id t, ix.ids[r]? = some id → s.Refers id t → Covered ix c order t

omit [Scalar K] in
/-- **The order of copying has every representative once and is closed under references.** -/
theorem ordered_of_copyOrder {c : Classes} {order : List Nat}
    (h : copyOrder s ix c = .ok order) : Ordered s ix c order := by
  have hstart : Copying s ix c [.visit s.root] [] [] :=
    ⟨List.nodup_nil, .nil, by simp, Or.inr List.mem_cons_self, by simp⟩
  obtain ⟨entered, hend⟩ := copying_of_copyWalk h hstart
  have hperm : order.Perm entered := by simpa [finishing] using hend.finished
  have hcovered : ∀ t, Covered ix c entered t → Covered ix c order t :=
    fun t ⟨p, hp, hmem⟩ => ⟨p, hp, hperm.symm.subset hmem⟩
  exact
    { nodup := hperm.nodup_iff.mpr hend.nodup
      object := fun r hr => hend.object r (hperm.subset hr)
      root := hcovered _ (by simpa using hend.root)
      closed := fun r hr id t hid ht =>
        hcovered t (by simpa using hend.followed r (hperm.subset hr) id t hid ht) }

end Merge
end Diorama
