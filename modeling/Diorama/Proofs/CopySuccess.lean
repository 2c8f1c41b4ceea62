/-
  When a scene is copied.

  The walk over classes follows references of indexed objects, so it never meets an object that was
  not indexed: the only thing that can stop it is an object of an unknown kind (`copyWalk_error`).
  Such an object is never merged, so where one is reachable its class is its own and the walk meets
  it.  What the walk lists makes a scene that passes its check, since a copy refers to copies.

  The copy is as good as the scene: its references lead to lower objects (`Copied.ranked_copy`), and
  what is frozen in it are animations if animators of the scene run animations.
-/
import Mathlib
import Diorama.Proofs.QuotientCopy
import Diorama.Proofs.ReductionEnds

namespace Diorama

/-! ## Checking a scene -/

namespace Scene

variable {K : Type} {s : Scene K}

theorem checkReferences_of_forall {holder : ObjectId} {ids : List ObjectId}
    (h : ∀ t ∈ ids, ∃ p, s.get? t = some p) : s.checkReferences holder ids = .ok () := by
  induction ids with
  | nil => rfl
  | cons t ids ih =>
    obtain ⟨p, hp⟩ := h t List.mem_cons_self
    simp only [checkReferences, resolve, hp]
    exact ih fun u hu => h u (List.mem_cons_of_mem _ hu)

theorem checkObjects_of_forall {ids : List ObjectId}
    (h : ∀ id o, s.get? id = some o → ∀ t ∈ o.targets, ∃ p, s.get? t = some p) :
    s.checkObjects ids = .ok () := by
  induction ids with
  | nil => rfl
  | cons id ids ih =>
    rw [checkObjects]
    cases hget : s.get? id with
    | none => exact ih
    | some o =>
      simp only [checkReferences_of_forall (h id o hget)]
      exact ih

/-- A scene whose root and references lead to objects passes the check. -/
theorem validate_of_forall {o : Object K} (hroot : s.get? s.root = some o)
    (h : ∀ id o, s.get? id = some o → ∀ t ∈ o.targets, ∃ p, s.get? t = some p) :
    s.validate = .ok () := by
  rw [validate, hroot]
  exact checkObjects_of_forall h

end Scene

namespace Merge

variable {K : Type} {s out : Scene K} {ix : Index} {c : Classes} {settings : OptimizerSettings}
  {order : List Nat}

/-! ## The walk -/

theorem visits_indexed_start (hix : Index.Sound s ix) :
    ∀ id, CopyTask.visit id ∈ [CopyTask.visit s.root] → id ∈ ix.ids := by
  intro id hid
  obtain rfl := CopyTask.visit.inj (List.mem_singleton.mp hid)
  exact hix.root_mem

/-- Where an object is entered, what is visited next is indexed. -/
theorem visits_indexed_enter (hix : Index.Sound s ix) {r : Nat} {rid a : ObjectId} {o : Object K}
    {rest : List CopyTask} (hrid : ix.ids[r]? = some rid) (hget : s.get? rid = some o)
    (htasks : ∀ id, .visit id ∈ CopyTask.visit a :: rest → id ∈ ix.ids) :
    ∀ id, .visit id ∈ o.copyOrder.map CopyTask.visit ++ .finish r :: rest → id ∈ ix.ids := by
  intro id hid
  rcases List.mem_append.mp hid with hid | hid
  · obtain ⟨t, ht, heq⟩ := List.mem_map.mp hid
    obtain rfl := CopyTask.visit.inj heq
    exact hix.ranked.closed (List.mem_of_getElem? hrid)
      (Scene.refers_of_get? hget (mem_copyOrder.mp ht))
  · rcases List.mem_cons.mp hid with heq | hid
    · cases heq
    · exact htasks id (List.mem_cons_of_mem _ hid)

/-- **Only an object of an unknown kind stops the walk.** -/
theorem copyWalk_error (hix : Index.Sound s ix)
    (hrep : ∀ p, c.representative p ≤ p)
    {tasks : List CopyTask} {entered finished : List Nat} {e : SceneError}
    (hwalk : copyWalk s ix c tasks entered finished = .error e)
    (htasks : ∀ id, .visit id ∈ tasks → id ∈ ix.ids) :
    ∃ id ∈ ix.ids, ∃ o name, s.get? id = some o ∧ o.content = .external name ∧
      e = .unsupported id name .copying := by
  fun_induction copyWalk s ix c tasks entered finished with
  | case1 => cases hwalk
  | case2 entered finished r rest ih =>
    exact ih hwalk fun id hid => htasks id (List.mem_cons_of_mem _ hid)
  | case3 entered finished id rest hnone =>
    exact absurd (htasks id List.mem_cons_self) (Index.not_mem_ids_of_position?_eq_none hnone)
  | case4 entered finished id rest p hpos hseen ih =>
    exact ih hwalk fun t ht => htasks t (List.mem_cons_of_mem _ ht)
  | case5 entered finished id rest p hpos hnew hnone =>
    -- representatives are indexed
    obtain ⟨hlt, -⟩ := List.getElem?_eq_some_iff.mp (Index.position?_eq_some hpos)
    have hle := hrep p
    rw [List.getElem?_eq_getElem (by omega)] at hnone
    cases hnone
  | case6 entered finished id rest p hpos hnew rid hrid hnone =>
    obtain ⟨o, ho, -⟩ := hix.object rid (List.mem_of_getElem? hrid)
    rw [ho] at hnone
    cases hnone
  | case7 entered finished id rest p hpos hnew rid hrid o hget name hname =>
    exact ⟨rid, List.mem_of_getElem? hrid, o, name, hget, hname, (Except.error.inj hwalk).symm⟩
  | case8 entered finished id rest p hpos hnew rid hrid o hget hknown ih =>
    exact ih hwalk (visits_indexed_enter hix hrid hget htasks)

variable [Scalar K]

theorem representative_le (s : Scene K) (ix : Index) (settings : OptimizerSettings) (p : Nat) :
    (Classes.ofIndex s ix settings).representative p ≤ p :=
  (Classes.isLeast_representative _ p).2 ((Classes.ofIndex s ix settings).relation.refl p)

/-! ## The copy -/

/-- The representative that an object of the copy is the copy of. -/
def sourceId (ix : Index) (order : List Nat) (y : ObjectId) : ObjectId :=
  (order[y.index]?.bind (ix.ids[·]?)).getD y

namespace Copied

variable (h : Copied s ix settings c order out)

include h

theorem sourceId_copyId {id : ObjectId} {p : Nat} (hpos : ix.position? id = some p)
    (hmem : c.representative p ∈ order) :
    ∃ rid, ix.ids[c.representative p]? = some rid ∧
      sourceId ix order (copyId ix c order id) = rid := by
  obtain ⟨rid, o, hrid, -⟩ := h.ordered.object _ hmem
  have hlt := List.idxOf_lt_length_of_mem hmem
  refine ⟨rid, hrid, ?_⟩
  rw [sourceId, h.index_copyId hpos hmem, List.getElem?_eq_getElem hlt, List.getElem_idxOf hlt,
    Option.bind_some, hrid]
  rfl

/-- The representative of an object has its rank. -/
theorem copyRank_sourceId {id : ObjectId} (hid : id ∈ ix.ids) :
    copyRank s ix order (sourceId ix order (copyId ix c order id)) = copyRank s ix order id := by
  obtain ⟨p, hpos, hmem⟩ := h.covered hid
  obtain ⟨rid, hrid, hsource⟩ := h.sourceId_copyId hpos hmem
  have hweight : ix.weight s rid = ix.weight s id := by
    have hrep := h.weightAt_representative hpos
    rwa [weightAt, hrid] at hrep
  rw [hsource, copyRank, copyRank, hweight]

variable (horder : copyOrder s ix c = .ok order)

include horder

/-- A copy refers to the copies of what its source refers to. -/
theorem exists_of_refers_copy {y z : ObjectId} (hyz : out.Refers y z) :
    ∃ a b, a ∈ ix.ids ∧ s.Refers a b ∧ copyId ix c order a = y ∧ copyId ix c order b = z := by
  obtain ⟨x, hx, hz⟩ := Scene.exists_get?_of_refers hyz
  obtain ⟨r, id, o, -, hid, hget, -, hcopyId, hcopy⟩ :=
    h.exists_source horder (Scene.index_lt_size hx)
  obtain rfl := Option.some.inj (hx.symm.trans hcopy)
  rw [targets_copyObject] at hz
  obtain ⟨b, hb, rfl⟩ := List.mem_map.mp hz
  exact ⟨id, b, List.mem_of_getElem? hid, Scene.refers_of_get? hget hb, hcopyId, rfl⟩

/-- **References of a copy lead to lower objects.** -/
theorem ranked_copy : out.Ranked (fun y => y.index < out.size)
    (fun y => copyRank s ix order (sourceId ix order y)) where
  object hy := ⟨_, Array.getElem?_eq_getElem hy⟩
  closed := by
    intro y z _ hyz
    obtain ⟨a, b, ha, hab, -, rfl⟩ := h.exists_of_refers_copy horder hyz
    exact h.index_copyId_lt (h.sound.ranked.closed ha hab)
  descends := by
    intro y z _ hyz
    obtain ⟨a, b, ha, hab, rfl, rfl⟩ := h.exists_of_refers_copy horder hyz
    rw [h.copyRank_sourceId ha, h.copyRank_sourceId (h.sound.ranked.closed ha hab)]
    exact h.copyRank_lt (h.covered ha) hab
  bounded := by
    intro y hy
    obtain ⟨r, id, o, -, hid, -, -, rfl, -⟩ := h.exists_source horder hy
    have hmem := List.mem_of_getElem? hid
    rw [h.copyRank_sourceId hmem, h.size_eq]
    exact h.copyRank_lt_length (h.covered hmem)

/-- All of a copy is reachable. -/
theorem mem_reachable_iff {y : ObjectId} : y ∈ out.reachable ↔ y.index < out.size := by
  constructor
  · intro hy
    obtain ⟨o, ho⟩ := Scene.get?_of_mem_reachable hy
    exact Scene.index_lt_size ho
  · intro hy
    obtain ⟨r, id, o, -, hid, -, -, rfl, -⟩ := h.exists_source horder hy
    exact h.copyId_mem_reachable (List.mem_of_getElem? hid)

/-- A copy passes its check. -/
theorem validate_copy : out.validate = .ok () := by
  have hranked := h.ranked_copy horder
  have hroot : out.root.index < out.size := h.root ▸ h.index_copyId_lt h.sound.root_mem
  obtain ⟨o, ho⟩ := hranked.object hroot
  refine Scene.validate_of_forall ho fun id p hp t ht => ?_
  exact hranked.object (hranked.closed (Scene.index_lt_size hp) (Scene.refers_of_get? hp ht))

omit horder in
/-- The copy of an object is of its kind. -/
theorem kind_copy {id : ObjectId} {o : Object K} (hid : id ∈ ix.ids) (hget : s.get? id = some o) :
    ∃ o', out.get? (copyId ix c order id) = some o' ∧ o'.content.kind = o.content.kind := by
  obtain ⟨p, hpos, hmem⟩ := h.covered hid
  obtain ⟨x, hxat, hx⟩ := h.exists_representative hpos hmem hget
  refine ⟨_, h.get?_copyId hpos hmem hxat, ?_⟩
  have hsame : x.content.kind = o.content.kind := by
    rcases hx with rfl | ⟨k, hko, hkx⟩
    · rfl
    · exact (Object.kind_of_mergeKey? hkx).symm.trans (Object.kind_of_mergeKey? hko)
  rcases copyObject_content c settings (copyId ix c order) (c.representative p) x with hc | hc
  · rw [hc, Content.kind_mapIds, hsame]
  · rw [hc, Content.kind_withoutDefaults, Content.kind_mapIds, hsame]

end Copied

theorem copy_of_copyOrder_error {e : SceneError} (h : copyOrder s ix c = .error e) :
    copy s ix c settings = .error e := by
  rw [copy, h]
  rfl

/-- **A scene is copied, or an object of an unknown kind is reachable** and the error names it. -/
theorem copy_cases (settings : OptimizerSettings) (hix : Index.build s = .ok ix) :
    (∃ out, copy s ix (Classes.ofIndex s ix settings) settings = .ok out) ∨
      ∃ id ∈ ix.ids, ∃ o name, s.get? id = some o ∧ o.content = .external name ∧
        copy s ix (Classes.ofIndex s ix settings) settings =
          .error (.unsupported id name .copying) := by
  have hsound := Index.sound_of_build hix
  cases horder : copyOrder s ix (Classes.ofIndex s ix settings) with
  | error e =>
    obtain ⟨id, hid, o, name, hget, hname, rfl⟩ := copyWalk_error hsound
      (representative_le s ix settings) horder (visits_indexed_start hsound)
    exact .inr ⟨id, hid, o, name, hget, hname, copy_of_copyOrder_error horder⟩
  | ok order =>
    have h := copied_assembled hix horder
    exact .inl ⟨_, copy_eq_ok_iff.mpr ⟨order, horder, rfl, h.validate_copy horder⟩⟩

/-- Where a scene is copied, every reachable object is of a known kind. -/
theorem known_of_copy (hix : Index.build s = .ok ix)
    (hcopy : copy s ix (Classes.ofIndex s ix settings) settings = .ok out) {id : ObjectId}
    (hid : id ∈ ix.ids) {o : Object K} (hget : s.get? id = some o) (name : String) :
    o.content ≠ .external name := by
  intro hname
  obtain ⟨order, horder, rfl, -⟩ := copy_eq_ok_iff.mp hcopy
  have h := copied_assembled hix horder
  obtain ⟨p, hpos, hmem⟩ := h.covered hid
  obtain ⟨-, x, hx, hknown⟩ := known_of_copyOrder horder _ hmem
  obtain ⟨y, hy, hyo⟩ := h.exists_representative hpos hmem hget
  obtain rfl := Option.some.inj (hx.symm.trans hy)
  -- an object of an unknown kind has no key, so it represents itself
  rcases hyo with rfl | ⟨k, hk, -⟩
  · exact hknown name hname
  · simp [Object.mergeKey?, Object.isMergeable, Object.kind, hname, Content.kind] at hk

/-! ## What is frozen -/

omit [Scalar K] in
theorem isAnimation_iff_kind (content : Content K) : content.isAnimation = true ↔
    content.kind = .keyFrameAnimation ∨ content.kind = .expressionAnimation := by
  cases content <;> simp [Content.isAnimation, Content.kind]

/-- The animators of reachable objects run animations. -/
def RunsAnimations (s : Scene K) : Prop :=
  ∀ id ∈ s.reachable, ∀ o, s.get? id = some o → ∀ a ∈ o.attached.animators,
    ∃ t, s.get? a.animation = some t ∧ t.content.isAnimation = true

omit [Scalar K] in
theorem animation_mem_targets {o : Object K} {a : Animator} (ha : a ∈ o.attached.animators) :
    a.animation ∈ o.targets := by
  obtain ⟨i, hi⟩ := List.getElem?_of_mem ha
  have hmem : (⟨.animation i, a.animation⟩ : Reference) ∈ o.animatorReferences :=
    List.mem_flatMap.mpr ⟨(a, i), List.mem_zipIdx_iff_getElem?.mpr hi, List.mem_cons_self⟩
  exact List.mem_map.mpr ⟨_, List.mem_append_right _ hmem, rfl⟩

/-- What is frozen in a copy are copies of animations. -/
theorem isAnimation_of_isFrozen (hix : Index.build s = .ok ix)
    (horder : copyOrder s ix (Classes.ofIndex s ix settings) = .ok order)
    (hanimations : RunsAnimations s) {y : ObjectId}
    (hy : (assembled s ix (Classes.ofIndex s ix settings) settings order).isFrozen y = true) :
    ∃ q, (assembled s ix (Classes.ofIndex s ix settings) settings order).get? y = some q ∧
      q.content.isAnimation = true := by
  have h := copied_assembled hix horder
  obtain ⟨x, o', a', hx, ha', rfl⟩ := (isFrozen_iff h y).mp hy
  obtain ⟨r, id, o, -, hid, hget, -, -, hcopied⟩ := h.exists_source horder (Scene.index_lt_size hx)
  obtain rfl := Option.some.inj (hx.symm.trans hcopied)
  rw [copyObject_animators] at ha'
  obtain ⟨a, ha, rfl⟩ := List.mem_map.mp ha'
  have hids := List.mem_of_getElem? hid
  obtain ⟨t, ht, hanimation⟩ := hanimations id (h.sound.mem_ids_iff.mp hids) o hget a ha
  have htids := h.sound.ranked.closed hids (Scene.refers_of_get? hget (animation_mem_targets ha))
  obtain ⟨t', ht', hkind⟩ := h.kind_copy htids ht
  refine ⟨t', ht', ?_⟩
  rwa [isAnimation_iff_kind, hkind, ← isAnimation_iff_kind]

/-- **A copy can be reduced**, if the animators of the scene run animations. -/
theorem reduce_copy_succeeds (hix : Index.build s = .ok ix)
    (hcopy : copy s ix (Classes.ofIndex s ix settings) settings = .ok out)
    (hanimations : RunsAnimations s) : ∃ done out', Reduction.reduce out = .ok done out' := by
  obtain ⟨order, horder, rfl, -⟩ := copy_eq_ok_iff.mp hcopy
  have h := copied_assembled hix horder
  have hranked := h.ranked_copy horder
  have hall := fun y => h.mem_reachable_iff horder (y := y)
  generalize hout : assembled s ix (Classes.ofIndex s ix settings) settings order = out at *
  have hset : (fun y => y ∈ out.reachable.toFinset) = fun y => y.index < out.size :=
    funext fun y => propext (List.mem_toFinset.trans (hall y))
  refine Reduction.reduce_succeeds (S := out.reachable.toFinset)
    ⟨hset ▸ hranked, ?_, fun {y q} hq hstill => ?_⟩
  · rw [List.mem_toFinset, hall, h.root]
    exact h.index_copyId_lt h.sound.root_mem
  · by_contra hfrozen
    rw [Bool.not_eq_false, ← hout] at hfrozen
    obtain ⟨t, ht, hanimation⟩ := isAnimation_of_isFrozen hix horder hanimations hfrozen
    rw [hout] at ht
    obtain rfl := Option.some.inj (hq.symm.trans ht)
    rw [hanimation] at hstill
    cases hstill

end Merge
end Diorama
