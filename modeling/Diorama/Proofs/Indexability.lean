/-
  Which scenes can be indexed.

  A scene is well formed if its root is an object, references lead to objects and never in a circle,
  and key frames fit their animations.  All of this is asked of what the root reaches, and of
  nothing else.  Exactly the well-formed scenes are indexed, and an error names a fault that the
  scene has (`build_decides`).

  The walk refuses a reference for three reasons, and only one of them takes an argument: that it
  leads back to an object which was entered and not left.  Such an object is still to be left.  The
  invariant is `Nested`: what is still to be left reaches every object whose references are followed
  before that.  So the reference closes a circle.

  For other modules the ranks of an index are of more use than its success.  An index ranks the
  objects of its scene, and the rank drops with every reference (`Sound.ranked`); a ranked scene has
  no fault apart from its key frames, so it can be indexed if they fit (`build_of_ranked`).
-/
import Diorama.Proofs.Indexing
import Diorama.Proofs.PartSampling

namespace Diorama

/-- Along references the rank drops. -/
theorem Scene.Ranked.reaches_lower {K : Type} {s : Scene K} {A : ObjectId → Prop}
    {rank : ObjectId → Nat} (h : s.Ranked A rank) {a b : ObjectId} (ha : A a)
    (hab : s.Reaches a b) : A b ∧ rank b ≤ rank a := by
  induction hab with
  | refl => exact ⟨ha, Nat.le_refl _⟩
  | tail _ hbc ih =>
    have hdrop := h.descends ih.1 hbc
    exact ⟨h.closed ih.1 hbc, by omega⟩

/-- Where every reference leads to an object, everything that the root reaches is listed. -/
theorem Scene.Ranked.mem_reachable_iff {K : Type} {s : Scene K} {A : ObjectId → Prop}
    {rank : ObjectId → Nat} (h : s.Ranked A rank) (hroot : A s.root) {id : ObjectId} :
    id ∈ s.reachable ↔ s.Reaches s.root id := by
  refine ⟨Scene.reaches_of_mem_reachable, fun hreach => ?_⟩
  induction hreach with
  | refl =>
    obtain ⟨o, ho⟩ := h.object hroot
    exact Scene.root_mem_reachable ho
  | @tail b c hab hbc ih =>
    obtain ⟨o, ho⟩ := h.object (h.reaches_lower hroot (hab.tail hbc)).1
    exact Scene.mem_reachable_of_refers ih hbc ho

/-! ## Faults -/

namespace Scene

variable {K : Type} {s : Scene K}

theorem get?_eq_none_iff {id : ObjectId} : s.get? id = none ↔ s.size ≤ id.index :=
  Array.getElem?_eq_none_iff

theorem exists_get?_iff {id : ObjectId} : (∃ o, s.get? id = some o) ↔ id.index < s.size := by
  rw [← Option.isSome_iff_exists, Option.isSome_iff_ne_none, ne_eq, get?_eq_none_iff, Nat.not_le]

/-- What is asked of a scene before it is indexed. -/
structure WellFormed (s : Scene K) : Prop where
  root : s.root.index < s.size
  closed : ∀ a b, s.Reaches s.root a → s.Refers a b → b.index < s.size
  acyclic : ∀ a, s.Reaches s.root a → ¬ Relation.TransGen s.Refers a a
  fits : ∀ a o animation, s.Reaches s.root a → s.get? a = some o →
    o.content = .keyFrameAnimation animation →
    ∀ frame ∈ animation.frames, frame.value.fits animation.kind = true

end Scene

/-- The key frame at this place is the first one that does not fit the animation. -/
def KeyFrameAnimation.FirstMisfit {K : Type} (animation : KeyFrameAnimation K) (i : Nat) : Prop :=
  (∃ frame, animation.frames[i]? = some frame ∧ frame.value.fits animation.kind = false) ∧
    ∀ j frame, j < i → animation.frames[j]? = some frame →
      frame.value.fits animation.kind = true

/-- What is wrong with a scene that is refused with an error. -/
inductive Scene.Fault {K : Type} (s : Scene K) : SceneError → Prop
  | missingRoot (hroot : s.size ≤ s.root.index) : s.Fault (.missingRoot s.root)
  | danglingReference {holder missing : ObjectId} (hreached : s.Reaches s.root holder)
      (hrefers : s.Refers holder missing) (hmissing : s.size ≤ missing.index) :
      s.Fault (.danglingReference holder missing)
  | cycle {holder target : ObjectId} (hreached : s.Reaches s.root holder)
      (hrefers : s.Refers holder target) (hback : s.Reaches target holder) :
      s.Fault (.cycle holder target)
  | keyFrameMismatch {id : ObjectId} {o : Object K} {animation : KeyFrameAnimation K} {i : Nat}
      (hreached : s.Reaches s.root id) (hget : s.get? id = some o)
      (ho : o.content = .keyFrameAnimation animation) (hmisfit : animation.FirstMisfit i) :
      s.Fault (.keyFrameMismatch id i animation.kind)

/-- A well-formed scene has no fault. -/
theorem Scene.WellFormed.not_fault {K : Type} {s : Scene K} (h : s.WellFormed) {e : SceneError} :
    ¬ s.Fault e := by
  intro hfault
  cases hfault with
  | missingRoot hroot => exact absurd h.root (Nat.not_lt.mpr hroot)
  | danglingReference hreached hrefers hmissing =>
    exact absurd (h.closed _ _ hreached hrefers) (Nat.not_lt.mpr hmissing)
  | cycle hreached hrefers hback =>
    exact h.acyclic _ hreached (Relation.TransGen.head' hrefers hback)
  | keyFrameMismatch hreached hget ho hmisfit =>
    obtain ⟨⟨frame, hframe, hunfit⟩, -⟩ := hmisfit
    rw [h.fits _ _ _ hreached hget ho frame (List.mem_of_getElem? hframe)] at hunfit
    cases hunfit

namespace Index

variable {K : Type} {s : Scene K} {ix : Index} {A : ObjectId → Prop} {rank : ObjectId → Nat}

/-! ## Indexed and reachable -/

/-- An index ranks the scene. -/
theorem Sound.ranked (h : ix.Sound s) : s.Ranked (· ∈ ix.ids) ix.rank where
  object hid := (h.object _ hid).imp fun _ ho => ho.1
  closed ha hab := (h.rank_lt ha hab).1
  descends ha hab := (h.rank_lt ha hab).2
  bounded hid := Nat.lt_of_lt_of_le (h.rank_lt_size hid) h.size_le

/-- Exactly the reachable objects are indexed. -/
theorem Sound.mem_ids_iff (h : ix.Sound s) {id : ObjectId} : id ∈ ix.ids ↔ id ∈ s.reachable := by
  rw [h.ranked.mem_reachable_iff h.root_mem]
  exact ⟨h.reached id, fun hid => (h.ranked.reaches_lower h.root_mem hid).1⟩

/-! ## Key frames -/

theorem checkFrames_eq_error {id : ObjectId} {o : Object K} {e : SceneError}
    (h : checkFrames id o = .error e) :
    ∃ animation i, o.content = .keyFrameAnimation animation ∧ animation.FirstMisfit i ∧
      e = .keyFrameMismatch id i animation.kind := by
  unfold checkFrames at h
  split at h
  case h_1 animation ho =>
    split at h
    case h_1 i hfind =>
      obtain ⟨hlt, hunfit, hbefore⟩ := List.findIdx?_eq_some_iff_getElem.mp hfind
      refine ⟨animation, i, ho, ⟨⟨animation.frames[i], List.getElem?_eq_getElem hlt, ?_⟩, ?_⟩, ?_⟩
      · simpa using hunfit
      · intro j frame hj hframe
        obtain ⟨hjlt, rfl⟩ := List.getElem?_eq_some_iff.mp hframe
        simpa using hbefore j hj
      · cases h
        rfl
    case h_2 => cases h
  case h_2 => cases h

theorem fits_of_checkFrames {id : ObjectId} {o : Object K} {animation : KeyFrameAnimation K}
    (h : checkFrames id o = .ok ()) (ho : o.content = .keyFrameAnimation animation) :
    ∀ frame ∈ animation.frames, frame.value.fits animation.kind = true := by
  simp only [checkFrames, ho] at h
  split at h
  case h_1 => cases h
  case h_2 hfind =>
    intro frame hframe
    simpa using List.findIdx?_eq_none_iff.mp hfind frame hframe

/-! ## What is still to be left -/

/-- What is still to be left reaches the objects whose references are followed before. -/
def Nested (s : Scene K) (ids : List ObjectId) : List Task → Prop
  | [] => True
  | .follow holder _ _ :: rest =>
    (∀ p ∈ pending rest, ∀ a, ids[p]? = some a → s.Reaches a holder) ∧ Nested s ids rest
  | .leave _ :: rest => Nested s ids rest

theorem Nested.congr {ids ids' : List ObjectId} {tasks : List Task} (h : Nested s ids tasks)
    (hids : ∀ p ∈ pending tasks, ids'[p]? = ids[p]?) : Nested s ids' tasks := by
  induction tasks with
  | nil => trivial
  | cons task rest ih =>
    cases task with
    | follow holder p r =>
      obtain ⟨habove, hrest⟩ := h
      refine ⟨?_, ih hrest hids⟩
      intro q hq a ha
      rw [hids q hq] at ha
      exact habove q hq a ha
    | leave p =>
      exact ih h fun q hq => hids q (by simp [pending, hq])

/-- A visit of an object that all that is still to be left reaches. -/
theorem Nested.visit {ids : List ObjectId} {o : Object K} {id : ObjectId} {p : Nat}
    {rest : List Task} (hid : ids[p]? = some id)
    (habove : ∀ q ∈ pending rest, ∀ a, ids[q]? = some a → s.Reaches a id)
    (h : Nested s ids rest) : Nested s ids (Task.visit o id p ++ rest) := by
  have hfollow : ∀ rs : List Reference,
      Nested s ids (rs.map (Task.follow id p) ++ (.leave p :: rest)) ∧
        pending (rs.map (Task.follow id p) ++ (.leave p :: rest)) = p :: pending rest := by
    intro rs
    induction rs with
    | nil => exact ⟨h, rfl⟩
    | cons r rs ih =>
      obtain ⟨hnested, hpending⟩ := ih
      refine ⟨⟨?_, hnested⟩, hpending⟩
      intro q hq a ha
      change q ∈ pending (rs.map (Task.follow id p) ++ (.leave p :: rest)) at hq
      rw [hpending] at hq
      rcases List.mem_cons.mp hq with rfl | hq
      · obtain rfl : id = a := Option.some.inj (hid.symm.trans ha)
        exact .refl
      · exact habove q hq a ha
  have hvisit := (hfollow o.references).1
  simpa [Task.visit] using hvisit

/-! ## Every error is true -/

/-- **A walk fails for a fault of the scene.** -/
theorem fault_of_walk {tasks : List Task} {e : SceneError} (hwalk : walk s tasks ix = .error e)
    (h : Walking s tasks ix) (hnested : Nested s ix.ids tasks) : s.Fault e := by
  fun_induction walk s tasks ix with
  | case1 ix => cases hwalk
  | case2 ix p rest ih => exact ih hwalk h.leave_step hnested
  | case3 ix holder position r rest p hpos hp ih =>
    exact ih hwalk (h.refer_step hpos hp _) (by simpa using hnested.2)
  | case4 ix holder position r rest p hpos hp =>
    -- the object is still to be left, so it reaches its holder
    obtain ⟨hholder, hrefers⟩ := h.followed holder position r (by simp)
    obtain ⟨hlt, -⟩ := List.getElem?_eq_some_iff.mp (position?_eq_some hpos)
    have hmem : p ∈ ix.postOrder ++ pending rest := by
      refine h.positions.symm.subset (List.mem_range.mpr ?_)
      rwa [size_eq_length_ids]
    have hpending : p ∈ pending rest := (List.mem_append.mp hmem).resolve_left hp
    have hback := hnested.1 p hpending r.target (position?_eq_some hpos)
    cases hwalk
    exact .cycle (h.reached holder hholder) hrefers hback
  | case5 ix holder position r rest hpos hget =>
    obtain ⟨hholder, hrefers⟩ := h.followed holder position r (by simp)
    cases hwalk
    exact .danglingReference (h.reached holder hholder) hrefers (Scene.get?_eq_none_iff.mp hget)
  | case6 ix holder position r rest hpos o hget e herror =>
    obtain ⟨hholder, hrefers⟩ := h.followed holder position r (by simp)
    obtain ⟨animation, i, ho, hmisfit, rfl⟩ := checkFrames_eq_error herror
    cases hwalk
    exact .keyFrameMismatch ((h.reached holder hholder).tail hrefers) hget ho hmisfit
  | case7 ix holder position r rest hpos o hget hok ih =>
    obtain ⟨hholder, hrefers⟩ := h.followed holder position r (by simp)
    obtain ⟨habove, hrest⟩ := hnested
    have hlt : ∀ p ∈ pending rest, p < ix.ids.length := by
      intro p hp
      rw [← size_eq_length_ids]
      exact List.mem_range.mp (h.positions.subset (List.mem_append_right _ hp))
    -- old positions keep their objects
    have hold : ∀ p ∈ pending rest,
        (ix.enter r.target [⟨position, r.slot⟩]).ids[p]? = ix.ids[p]? := by
      intro p hp
      rw [ids_enter, List.getElem?_append_left (hlt p hp)]
    refine ih hwalk (h.enter_step hpos hget hok _) (Nested.visit ?_ ?_ (hrest.congr hold))
    · simp [size_eq_length_ids]
    · intro q hq a ha
      rw [hold q hq] at ha
      exact (habove q hq a ha).tail hrefers

theorem fault_of_build {e : SceneError} (h : build s = .error e) : s.Fault e := by
  unfold build at h
  cases hget : s.get? s.root with
  | none =>
    rw [hget] at h
    cases h
    exact .missingRoot (Scene.get?_eq_none_iff.mp hget)
  | some o =>
    rw [hget] at h
    simp only [bind, Except.bind] at h
    cases hframes : checkFrames s.root o with
    | error e' =>
      obtain ⟨animation, i, ho, hmisfit, rfl⟩ := checkFrames_eq_error hframes
      rw [hframes] at h
      cases h
      exact .keyFrameMismatch .refl hget ho hmisfit
    | ok u =>
      rw [hframes] at h
      have hnested : Nested s (enter {} s.root []).ids (Task.visit o s.root 0 ++ []) :=
        Nested.visit (by simp [ids, enter]) (by simp [pending]) trivial
      rw [List.append_nil] at hnested
      exact fault_of_walk h (.start hget hframes) hnested

/-! ## Well-formed scenes -/

theorem build_of_wellFormed (h : s.WellFormed) : ∃ ix, build s = .ok ix := by
  cases hbuild : build s with
  | ok ix => exact ⟨ix, rfl⟩
  | error e => exact absurd (fault_of_build hbuild) h.not_fault

/-- Along references the rank drops, so they never lead in a circle. -/
theorem wellFormed_of_ranked (hranked : s.Ranked A rank) (hroot : A s.root)
    (hframes : ∀ id o, A id → s.get? id = some o → checkFrames id o = .ok ()) : s.WellFormed := by
  have hA : ∀ id, s.Reaches s.root id → A id := fun id hid => (hranked.reaches_lower hroot hid).1
  refine
    { root := Scene.exists_get?_iff.mp (hranked.object hroot)
      closed := fun a b ha hab =>
        Scene.exists_get?_iff.mp (hranked.object (hranked.closed (hA a ha) hab))
      acyclic := fun a ha hcycle => ?_
      fits := fun a o animation ha hget => fits_of_checkFrames (hframes a o (hA a ha) hget) }
  obtain ⟨b, hab, hba⟩ := Relation.TransGen.head'_iff.mp hcycle
  have hdrop := hranked.descends (hA a ha) hab
  have hle := (hranked.reaches_lower (hranked.closed (hA a ha) hab) hba).2
  omega

/-- **Ranked scenes can be indexed**, if their key frames fit. -/
theorem build_of_ranked (hranked : s.Ranked A rank) (hroot : A s.root)
    (hframes : ∀ id o, A id → s.get? id = some o → checkFrames id o = .ok ()) :
    ∃ ix, build s = .ok ix :=
  build_of_wellFormed (wellFormed_of_ranked hranked hroot hframes)

theorem Sound.wellFormed (h : ix.Sound s) : s.WellFormed := by
  refine wellFormed_of_ranked h.ranked h.root_mem fun id o hid hget => ?_
  obtain ⟨o', hget', hframes⟩ := h.object id hid
  rw [hget] at hget'
  cases hget'
  exact hframes

/-- **A scene is indexed if and only if it is well formed, and otherwise the error is true.**  The
scene may be anything: its root and references may lead nowhere or in circles. -/
theorem build_decides (s : Scene K) :
    ((∃ ix, build s = .ok ix) ↔ s.WellFormed) ∧
    (∀ root, build s = .error (.missingRoot root) ↔ root = s.root ∧ s.size ≤ s.root.index) ∧
    ∀ e, build s = .error e → s.Fault e := by
  refine ⟨⟨?_, build_of_wellFormed⟩, fun root => ⟨fun h => ?_, ?_⟩, fun e => fault_of_build⟩
  · rintro ⟨ix, hix⟩
    exact (sound_of_build hix).wellFormed
  · cases fault_of_build h with
    | missingRoot hroot => exact ⟨rfl, hroot⟩
  · rintro ⟨rfl, hroot⟩
    rw [build, Scene.get?_eq_none_iff.mpr hroot]

/-- A scene with a circle of two objects, behind a reference to an object that has been left. -/
def knot : Scene (BitVec 32) where
  root := ⟨0⟩
  objects := #[
    { content := .containerVisual {} [⟨1⟩, ⟨2⟩] },
    { content := .containerVisual {} [⟨3⟩] },
    { content := .containerVisual {} [⟨3⟩, ⟨4⟩] },
    { content := .containerVisual {} [] },
    { content := .containerVisual {} [⟨2⟩] }]

theorem knot_decides :
    build knot = .error (.cycle ⟨4⟩ ⟨2⟩) ∧ knot.Fault (.cycle ⟨4⟩ ⟨2⟩) ∧ ¬ knot.WellFormed := by
  have hbuild : build knot = .error (.cycle ⟨4⟩ ⟨2⟩) := by cbv
  obtain ⟨haccepts, -, hfault⟩ := build_decides knot
  refine ⟨hbuild, hfault _ hbuild, fun hwell => ?_⟩
  obtain ⟨ix, hix⟩ := haccepts.mpr hwell
  rw [hbuild] at hix
  cases hix

end Index
end Diorama
