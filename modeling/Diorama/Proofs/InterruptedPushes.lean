/-
  A pass of pushing down that is interrupted.

  A container leaves its matrix to its shapes one by one and drops it last.  If one of these objects
  is frozen, the push breaks off there: the shapes before it have taken the matrix over, and the
  container still has it.  So the sprites in these shapes are moved by the matrix twice, once by the
  shape and once by the container, and the picture is not what it was.

  `Strays` says of a sprite from which place it goes astray and where to.  It is all that happens:
  of an indexed scene whose pass fails, the picture afterwards is that from before with just these
  sprites displaced, and where there was none the error is the one from before
  (`pushDown_interrupted`).  The containers whose pushes were complete are no part of it, and
  neither is anything if the first shape was the frozen one.
-/
import Mathlib
import Diorama.Proofs.DrawnPlaces
import Diorama.Proofs.ReductionEnds
import Diorama.Proofs.SamplingErrors

namespace Diorama.Reduction

variable {K : Type} {A : ObjectId → Prop} {rank : ObjectId → Nat} {s s' mid : Scene K}
  {x : ObjectId} {o : Object K} {m : Matrix3x2 K} {e : SceneError} {written rest : List ObjectId}

section

variable [Scalar K]

/-! ## Where a push breaks off -/

/-- A push that fails has written some of the shapes, and the next one or the container is
frozen. -/
theorem exists_of_pushObject_error {single : ObjectId → Bool}
    (h : pushObject single x mid = .error e s') :
    ∃ o m written rest, mid.get? x = some o ∧ matrixContainer? o = some (m, written ++ rest) ∧
      (∀ c ∈ written ++ rest, single c = true ∧ ∃ p, mid.get? c = some p ∧ accepts p = true) ∧
      written.forM (fun c => Editing.change c fun p =>
        { p with content := takeOver m p.content }) mid = .ok () s' ∧
      s'.changeable (rest.headD x) = .error e := by
  rcases pushObject_spec single x mid with
    ⟨hidle, -⟩ | ⟨o, m, shapes, -, -, ho, hmatrix, hall, hrun⟩
  · cases hidle.symm.trans h
  · rw [hrun] at h
    rcases Editing.exists_of_bind_error h with hshapes | ⟨⟨⟩, t, hshapes, hdrop⟩
    · obtain ⟨written, c, rest, rfl, hwritten, hrefused⟩ := Editing.exists_of_forM_error hshapes
      exact ⟨o, m, written, c :: rest, ho, hmatrix, hall, hwritten, hrefused⟩
    · rcases Editing.exists_of_bind_error hdrop with hlast | ⟨_, _, -, hpure⟩
      · obtain ⟨rfl, hrefused⟩ := Editing.eq_of_change_error hlast
        rw [← List.append_nil shapes] at hmatrix hall
        exact ⟨o, m, shapes, [], ho, hmatrix, hall, hshapes, hrefused⟩
      · cases hpure

/-- A pass over `s` that failed: it came as far as the scene `mid`, in which the container `x` was
to leave the matrix `m` to its shapes.  Those of `written` have taken it over, and the next one, or
the container if there is none, is frozen. -/
structure Interrupted (s : Scene K) (e : SceneError) (s' mid : Scene K) (x : ObjectId)
    (m : Matrix3x2 K) (written rest : List ObjectId) : Prop where
  reached : ∃ before after done, s.reachable = before ++ x :: after ∧
    Editing.sumOver (pushObject (isSingle s)) before s = .ok done mid
  container : ∃ o, mid.get? x = some o ∧ matrixContainer? o = some (m, written ++ rest)
  left : mid.Edited (editOf written fun p => { p with content := takeOver m p.content }) s'
  refused : ∃ p, s.get? (rest.headD x) = some p ∧ s.isFrozen (rest.headD x) = true ∧
    e = .frozen (rest.headD x) p.kind

/-! ## Sprites that go astray -/

/-- A sprite below `y`, which is drawn in the world `w`, goes astray from `q` to `q'`: it is in a
shape that has taken the matrix over from the container `x`, which holds the shape still, so that
the matrix moves it twice. -/
def Strays (n : Moment K) (x : ObjectId) (m : Matrix3x2 K) (written : List ObjectId) (y : ObjectId)
    (w q q' : Matrix3x2 K) : Prop :=
  ∃ v c p, n.Draws y w x v ∧ c ∈ written ∧ n.Shows c .identity p ∧
    q = p.andThen (m.andThen v) ∧ q' = p.andThen (m.andThen (m.andThen v))

variable {n : Moment K} {y : ObjectId} {w q q' : Matrix3x2 K}

/-- Sprites below another object than the container stray below what it draws inside itself. -/
theorem strays_iff (hyx : y ≠ x) (ho : n.scene.get? y = some o) {matrix : Matrix3x2 K}
    {cs : List ObjectId} (h : n.enclosed y o = .ok (matrix, cs)) :
    Strays n x m written y w q q' ↔ ∃ c ∈ cs, Strays n x m written c (matrix.andThen w) q q' := by
  constructor
  · rintro ⟨v, d, p, hdraws, hrest⟩
    rcases (Moment.draws_iff ho h).mp hdraws with ⟨heq, -⟩ | ⟨c, hc, hdraws⟩
    · exact absurd heq hyx
    · exact ⟨c, hc, v, d, p, hdraws, hrest⟩
  · rintro ⟨c, hc, v, d, p, hdraws, hrest⟩
    exact ⟨v, d, p, .inside ho h hc hdraws, hrest⟩

variable (hranked : n.scene.Ranked A rank)

include hranked

/-- Where the container itself is drawn it moves the written shapes twice. -/
theorem strays_container_iff (hx : A x) :
    Strays n x m written x w q q' ↔ ∃ c ∈ written, ∃ p, n.Shows c .identity p ∧
      q = p.andThen (m.andThen w) ∧ q' = p.andThen (m.andThen (m.andThen w)) := by
  constructor
  · rintro ⟨v, c, p, hdraws, hc, hplaces⟩
    obtain rfl := hdraws.eq_of_self hranked hx
    exact ⟨c, hc, p, hplaces⟩
  · rintro ⟨c, hc, p, hplaces⟩
    exact ⟨w, c, p, .self x w, hc, hplaces⟩

/-- Below the container nothing strays that is drawn on its own. -/
theorem not_strays (hy : A y) (hlower : rank y < rank x) : ¬Strays n x m written y w q q' := by
  rintro ⟨v, c, p, hdraws, -⟩
  have hle := hdraws.rank_le hranked hy
  omega

end

variable [ExactScalar K]

/-! ## The shapes that were written -/

/-- The worlds in which the two scenes draw the same: a shape that was written brings the matrix
along. -/
def writtenWorlds (m : Matrix3x2 K) (written : List ObjectId) (y : ObjectId) (w w' : Matrix3x2 K) :
    Prop :=
  if y ∈ written then w = m.andThen w' else w = w'

section

variable (h₁ : Reduced Eq A rank s s) (h : Pushing Eq A rank s s mid)
  (hpush : Pushable s mid x o m (written ++ rest))
  (he : mid.Edited (editOf written fun p => { p with content := takeOver m p.content }) s')

include h₁ h hpush he

omit h₁ h hpush he in
theorem written_counterpart (y : ObjectId) (p : Object K) :
    p.Counterpart Eq id
      (editOf written (fun p => { p with content := takeOver m p.content }) y p) := by
  by_cases hy : y ∈ written
  · rw [editOf_of_mem hy]
    exact ⟨(Object.Counterpart.refl p).animators, (takeOver_content m p.content).2⟩
  · rw [editOf_of_not_mem hy]
    exact .refl p

omit h₁ in
/-- Below the container everything is drawn likewise: no list there holds a shape that was
written. -/
theorem likewise_below {y : ObjectId} {p p' : Object K}
    (hmirrors : mid.Mirrors Eq id (fun y => y ∈ s.reachable ∧ rank y < rank x) rank s')
    (hf : Facing Eq id (fun y => y ∈ s.reachable ∧ rank y < rank x) mid s' y p p')
    (hdrawn : p.content.isDrawn = true) (time : Int64) :
    Likewise Eq id mid s' time (writtenWorlds m written) Eq y p p' := by
  -- only the container refers to its shapes, so below it no list has one that was written
  have hinside : Inside mid time id (writtenWorlds m written) Eq p.content.children
      p.content.children := by
    refine .same fun d hd w w' hw => ?_
    have hother : d ∉ written := by
      intro hmem
      have hyx := hpush.holder h hf.mem.1 (List.mem_append_left _ hmem)
        (Scene.refers_of_get? hf.left (Object.mem_targets_of_mem_children hd))
      exact absurd (hyx ▸ hf.mem.2) (Nat.lt_irrefl _)
    rwa [writtenWorlds, if_neg hother]
  obtain rfl := hf.eq_of_edited he
  by_cases hy : y ∈ written
  · obtain ⟨q, hq, haccepts⟩ := hpush.accepted (List.mem_append_left _ hy)
    obtain rfl := Option.some.inj (hf.left.symm.trans hq)
    rw [editOf_of_mem hy]
    refine likewise_takeOver haccepts (fun own w w' hw => ?_) hinside
    rw [writtenWorlds, if_pos hy] at hw
    rw [hw, toMatrix_followedBy, Matrix3x2.andThen_assoc]
  · refine .of_withChildren Placing.exact hmirrors hf hdrawn ?_ (fun w w' hw => ?_) hinside
    · rw [editOf_of_not_mem hy]
      exact p.content.withChildren_children.symm
    · rwa [writtenWorlds, if_neg hy] at hw

/-- **A shape that was written is drawn as it was in a world with the matrix once more.** -/
theorem visit_written {c : ObjectId} (hc : c ∈ written) {depth : Nat} (hdepth : rank c < depth)
    (holder : ObjectId) (b : Moment.Surroundings K) (time : Int64) :
    Agree Eq (Moment.visit ⟨mid, time⟩ depth holder c { b with world := m.andThen b.world })
      (Moment.visit ⟨s', time⟩ depth holder c b) := by
  have hshape : c ∈ written ++ rest := List.mem_append_left _ hc
  have hranked := h.ranked h₁
  have hreach : c ∈ s.reachable := hranked.closed hpush.reachable (hpush.refers hshape)
  have hmirrors := (hranked.below (rank x)).mirrors he fun y p _ _ => written_counterpart y p
  have hagree : VisitsAgree Eq id rank mid s' time (writtenWorlds m written) Eq c :=
    visit_agree hmirrors (fun _ _ _ hf hdrawn => likewise_below h hpush he hmirrors hf hdrawn time)
      (rank c + 1) c ⟨hreach, (hpush.lower h₁ h hshape).1⟩ (Nat.lt_succ_self _)
  have hworlds :=
    hagree depth depth holder holder { b with world := m.andThen b.world } b hdepth hdepth
    ⟨by rw [writtenWorlds, if_pos hc], rfl, rfl⟩
  exact hworlds.mono fun before after hlike =>
    (eq_of_moved (hlike.imp fun _ _ hab => hab.moved)).symm

/-- The sprites in a shape that was written are moved once more. -/
theorem displaced_written {c : ObjectId} (hc : c ∈ written) {depth : Nat} (hdepth : rank c < depth)
    (holder : ObjectId) (b : Moment.Surroundings K) (time : Int64) :
    Agree (Displaced fun q q' => ∃ p, Moment.Shows ⟨mid, time⟩ c .identity p ∧
        q = p.andThen b.world ∧ q' = p.andThen (m.andThen b.world))
      (Moment.visit ⟨mid, time⟩ depth holder c b) (Moment.visit ⟨s', time⟩ depth holder c b) := by
  have hranked := h.ranked h₁
  have hreach : c ∈ s.reachable :=
    hranked.closed hpush.reachable (hpush.refers (List.mem_append_left _ hc))
  -- both pictures of the shape are that of the shape on its own, in one world and in the other
  have halone : ∀ u, Agree (fun alone there => Moment.visit ⟨mid, time⟩ depth holder c
        { b with world := .identity } = .ok alone ∧ there = alone.map (·.within u))
      (Moment.visit ⟨mid, time⟩ depth holder c { b with world := .identity })
      (Moment.visit ⟨mid, time⟩ depth holder c { b with world := u }) := by
    intro u
    have hwithin :
        Agree _ (Moment.visit ⟨mid, time⟩ depth holder c { b with world := .identity }) _ :=
      Moment.visit_within hranked hreach u hdepth holder { b with world := .identity }
    rw [Matrix3x2.identity_andThen] at hwithin
    exact hwithin.and_left fun _ halone => halone
  have hmoved : Agree (fun alone after => after = alone.map (·.within (m.andThen b.world)))
      (Moment.visit ⟨mid, time⟩ depth holder c { b with world := .identity })
      (Moment.visit ⟨s', time⟩ depth holder c b) :=
    (halone (m.andThen b.world)).trans (visit_written h₁ h hpush he hc hdepth holder b time)
      fun _ _ _ hab hbc => hbc ▸ hab.2
  refine ((halone b.world).symm fun _ _ hab => hab).trans hmoved ?_
  rintro before alone after ⟨hvisit, rfl⟩ rfl
  refine (Displaced.within b.world (m.andThen b.world) alone).congr fun q q' => ?_
  simp only [Moment.mem_places_iff hranked hreach hvisit]

/-! ## The whole picture -/

omit h₁ h he in
/-- The container draws its shapes in a world with its matrix. -/
theorem enclosed_container (time : Int64) :
    Moment.enclosed ⟨mid, time⟩ x o = .ok (m, written ++ rest) := by
  have hstill : o.attached.animatesAny transformProperties = false := by
    simp [Attachments.animatesAny, o.attached.animators_of_isEmpty hpush.bare]
  rw [Moment.enclosed_containerShape hpush.content, Moment.shapeMatrix_still _ x hstill,
    ShapeTransform.toMatrix_matrix]
  rfl

/-- The shapes of the container: those that were written are moved once more, and the others are as
they were. -/
theorem displaced_container (time : Int64) {depth : Nat} (hdepth : rank x ≤ depth)
    {b : Moment.Surroundings K} {w : Matrix3x2 K}
    (hothers : ∀ c ∈ written ++ rest, c ∉ written →
      Agree (Displaced (Strays ⟨mid, time⟩ x m written c b.world))
        (Moment.visit ⟨mid, time⟩ depth x c b) (Moment.visit ⟨s', time⟩ depth x c b))
    (hworld : b.world = m.andThen w) :
    Agree (Displaced (Strays ⟨mid, time⟩ x m written x w))
      (Moment.gather ⟨mid, time⟩ depth x (written ++ rest) b)
      (Moment.gather ⟨s', time⟩ depth x (written ++ rest) b) := by
  have hranked := h.ranked h₁
  refine (gather_displaced (D := fun c q q' => c ∈ written ∧ ∃ p,
      Moment.Shows ⟨mid, time⟩ c .identity p ∧ q = p.andThen b.world ∧
        q' = p.andThen (m.andThen b.world)) fun c hc => ?_).mono
    fun before after hall => hall.congr fun q q' => ?_
  -- shapes that were written carry the matrix twice; the others are as before
  · have hlt := (hpush.lower h₁ h hc).1
    by_cases hmem : c ∈ written
    · refine (displaced_written h₁ h hpush he hmem (by omega) x b time).mono
        fun before after hmoved => hmoved.congr fun q q' => ?_
      simp only [hmem, true_and]
    · have hreach : c ∈ s.reachable := hranked.closed hpush.reachable (hpush.refers hc)
      refine (hothers c hc hmem).mono fun before after hsame => hsame.congr fun q q' => ?_
      exact ⟨fun hq => absurd hq (not_strays hranked hreach hlt), fun hq => absurd hq.1 hmem⟩
  · rw [strays_container_iff (n := ⟨mid, time⟩) hranked hpush.reachable, ← hworld]
    constructor
    · rintro ⟨c, -, hmem, hplaces⟩
      exact ⟨c, hmem, hplaces⟩
    · rintro ⟨c, hmem, hplaces⟩
      exact ⟨c, List.mem_append_left _ hmem, hmem, hplaces⟩

/-- **Below an object that was not written, just the sprites of `Strays` are displaced.** -/
theorem visit_displaced (time : Int64) {depth : Nat} {y holder : ObjectId}
    {a : Moment.Surroundings K} (hy : y ∈ s.reachable) (hother : y ∉ written)
    (hdepth : rank y < depth) :
    Agree (Displaced (Strays ⟨mid, time⟩ x m written y a.world))
      (Moment.visit ⟨mid, time⟩ depth holder y a) (Moment.visit ⟨s', time⟩ depth holder y a) := by
  have hranked := h.ranked h₁
  have hmirrors := hranked.mirrors he fun y p _ _ => written_counterpart y p
  -- induction on the depth that is left; only the container itself has shapes that stray
  induction depth generalizing y holder a with
  | zero => exact absurd hdepth (Nat.not_lt_zero _)
  | succ depth ih =>
    obtain ⟨p, hp⟩ := hranked.object hy
    have hright : s'.get? y = some p := by
      rw [he.get? hp, editOf_of_not_mem hother]
    have hf : Facing Eq id (· ∈ s.reachable) mid s' y p p := ⟨hy, hp, hright, .refl p⟩
    refine Moment.visit_alike hmirrors hf depth holder a (fun sprite matrix sample hc _ _ => ?_)
      fun matrix cs b _ henclosed hworld => ?_
    · have hyx : y ≠ x := by
        rintro rfl
        obtain rfl := Option.some.inj (hp.symm.trans hpush.object)
        cases hc.symm.trans hpush.content
      refine .same (fun q q' => ?_) _
      rw [strays_iff (n := ⟨mid, time⟩) hyx hp (Moment.enclosed_sprite hc)]
      simp
    · have hlower : ∀ c ∈ cs, c ∈ s.reachable ∧ rank c < rank y := by
        intro c hc
        have hrefers := Moment.refers_of_enclosed (n := ⟨mid, time⟩) hp henclosed hc
        exact ⟨hranked.closed hy hrefers, hranked.descends hy hrefers⟩
      -- below the container, places stray by the matrix; elsewhere they stray as their children do
      by_cases hyx : y = x
      · subst hyx
        obtain rfl := Option.some.inj (hp.symm.trans hpush.object)
        obtain ⟨rfl, rfl⟩ :=
          Prod.mk.inj (Except.ok.inj (henclosed.symm.trans (enclosed_container hpush time)))
        refine displaced_container h₁ h hpush he time (Nat.le_of_lt_succ hdepth)
          (fun c hc hmem => ?_) hworld
        obtain ⟨hreach, hlt⟩ := hlower c hc
        exact ih hreach hmem (by omega)
      · refine (gather_displaced (D := fun c => Strays ⟨mid, time⟩ x m written c b.world)
          fun c hc => ?_).mono fun before after hall => hall.congr fun q q' => ?_
        · obtain ⟨hreach, hlt⟩ := hlower c hc
          refine ih hreach (fun hmem => hyx ?_) (by omega)
          exact hpush.holder h hy (List.mem_append_left _ hmem)
            (Moment.refers_of_enclosed (n := ⟨mid, time⟩) hp henclosed hc)
        · rw [strays_iff (n := ⟨mid, time⟩) hyx hp henclosed, hworld]

/-- The picture that a push leaves that broke off. -/
theorem sampleAt_displaced (time : Int64) :
    Agree (Displaced (Strays ⟨mid, time⟩ x m written s.root .identity)) (s.sampleAt time)
      (s'.sampleAt time) := by
  obtain ⟨r, hr⟩ := h₁.ranked.object h₁.root
  have hroot : s.root ∈ s.reachable := Scene.root_mem_reachable hr
  -- the root is above the shapes
  have hother : s.root ∉ written := by
    intro hmem
    have hlt := (hpush.lower h₁ h (List.mem_append_left _ hmem)).2
    omega
  have hdepth : rank s.root < mid.depthLimit := Nat.lt_succ_of_lt ((h.ranked h₁).bounded hroot)
  have hpicture : Agree (Displaced (Strays ⟨mid, time⟩ x m written s.root .identity))
      (mid.sampleAt time) (s'.sampleAt time) := by
    have hvisit : Agree (Displaced (Strays ⟨mid, time⟩ x m written s.root .identity))
        (Moment.visit ⟨mid, time⟩ mid.depthLimit s.root s.root ⟨.identity, 1, []⟩)
        (Moment.visit ⟨s', time⟩ mid.depthLimit s.root s.root ⟨.identity, 1, []⟩) :=
      visit_displaced h₁ h hpush he time hroot hother hdepth (a := ⟨.identity, 1, []⟩)
    unfold Scene.sampleAt Scene.depthLimit
    rwa [he.root, he.size, h.root]
  refine (h.reduced.picture time).trans hpicture fun before now after hsame hmoved => ?_
  rwa [← eq_of_moved hsame]

end

/-! ## The pass -/

/-- A pass that fails was interrupted; up to there no reference had changed, and the push that broke
off was one that can be made. -/
theorem exists_interrupted (h₁ : Reduced Eq A rank s s) (hrun : pushDown s = .error e s') :
    ∃ mid x o m written rest, Interrupted s e s' mid x m written rest ∧
      Pushing Eq A rank s s mid ∧ Pushable s mid x o m (written ++ rest) := by
  have hpass : Editing.sumOver (pushObject (isSingle s)) s.reachable s = .error e s' := hrun
  obtain ⟨before, x, after, done, mid, hids, hbefore, hfails⟩ :=
    Editing.exists_of_sumOver_error hpass
  have hreach : x ∈ s.reachable := by
    rw [hids]
    exact List.mem_append_right _ List.mem_cons_self
  have h : Pushing Eq A rank s s mid := by
    refine pushing_of_sumOver Placing.exact h₁ (fun y hy => ?_) hbefore
    rw [hids]
    exact List.mem_append_left _ hy
  obtain ⟨o, m, written, rest, ho, hmatrix, hall, hwritten, hrefused⟩ :=
    exists_of_pushObject_error hfails
  obtain ⟨hbare, hcontent⟩ := matrixContainer?_eq_some hmatrix
  have hpush : Pushable s mid x o m (written ++ rest) :=
    ⟨hreach, ho, hbare, hcontent, fun hc => beq_iff_eq.mp (Bool.and_eq_true_iff.mp (hall _ hc).1).1,
      fun hc => (hall _ hc).2⟩
  have he := Editing.edited_of_forM (List.Nodup.of_append_left (hpush.nodup h)) hwritten
  -- the object that was refused stands in the scene, so it is frozen, and it was from the beginning
  have hobject : ∃ p, mid.get? (rest.headD x) = some p := by
    cases rest with
    | nil => exact ⟨o, ho⟩
    | cons c rest =>
      obtain ⟨p, hp, -⟩ := (hall c (List.mem_append_right _ List.mem_cons_self)).2
      exact ⟨p, hp⟩
  obtain ⟨p, hp⟩ := hobject
  obtain ⟨hfrozen, rfl⟩ := Scene.frozen_of_changeable (he.get? hp) hrefused
  have hframe : s.Rearranged s' := by
    have hleft := edit_rearranges (K := K) .pushDown s
    rwa [Editing.left_of_error hrun] at hleft
  rw [hframe.isFrozen] at hfrozen
  have hpinned := (hframe.pinned hfrozen).symm.trans (he.get? hp)
  exact ⟨mid, x, o, m, written, rest, ⟨⟨before, after, done, hids, hbefore⟩, ⟨o, ho, hmatrix⟩, he,
    ⟨_, hpinned, hfrozen, rfl⟩⟩, h, hpush⟩

/-- **An interrupted pass displaces the sprites that are moved twice, and no others.**  Of every
scene that is indexed, with whatever objects frozen: if the pass fails, it does so at a frozen
object, after complete pushes and a part of another one.  The scene that it leaves fails to be
sampled at the same times as the scene before, and with the same error.  At every other time it
shows the same samples in every field but the place; those that `Strays` names are where the matrix
takes them when it is applied twice, and all others are where they were.  So the picture is kept
just if nobody could tell the matrix applied twice from the matrix applied once, for instance if no
shape was written. -/
theorem pushDown_interrupted {ix : Index} (hix : Index.build s = .ok ix)
    (hrun : pushDown s = .error e s') :
    ∃ mid x m written rest, Interrupted s e s' mid x m written rest ∧ ∀ time,
      Agree (Displaced (Strays ⟨mid, time⟩ x m written s.root .identity)) (s.sampleAt time)
        (s'.sampleAt time) ∧
      FailsAlike (s.sampleAt time) (s'.sampleAt time) ∧
      ∀ samples, s.sampleAt time = .ok samples → (s'.sampleAt time = .ok samples ↔
        ∀ q q', Strays ⟨mid, time⟩ x m written s.root .identity q q' → q = q') := by
  have hsound := Index.sound_of_build hix
  have h₁ := Reduced.start Placing.exact hsound.ranked hsound.root_mem
  obtain ⟨mid, x, o, m, written, rest, hinterrupted, h, hpush⟩ := exists_interrupted h₁ hrun
  refine ⟨mid, x, m, written, rest, hinterrupted, fun time => ?_⟩
  have hdisplaced := sampleAt_displaced h₁ h hpush hinterrupted.left time
  have hfails := failsAlike_pushDown s time
  rw [Editing.left_of_error hrun] at hfails
  refine ⟨hdisplaced, hfails, fun samples hsamples => ?_⟩
  rw [hsamples] at hdisplaced
  generalize s'.sampleAt time = result at hdisplaced ⊢
  cases hdisplaced with
  | ok hmoved => rw [Except.ok.injEq, hmoved.eq_iff]

/-! ## A jammed push -/

/-- A container with a matrix and two sprites, the second of which is frozen. -/
def jam : Scene (BitVec 32) where
  root := ⟨0⟩
  objects := #[
    { content := .shapeVisual {} [⟨1⟩] },
    { content := .containerShape { matrix := some ⟨2, 0, 0, 2, 5, 7⟩ } [⟨2⟩, ⟨3⟩] },
    { content := .spriteShape { geometry := some ⟨4⟩ } },
    { content := .spriteShape { geometry := some ⟨4⟩ } },
    { content := .ellipseGeometry {} none (some ⟨3, 3⟩) }]
  frozen := [⟨3⟩]

/-- The first sprite has taken the matrix over, and the container has it still. -/
def jamLeft : Scene (BitVec 32) :=
  jam.set ⟨2⟩ { content := .spriteShape {
    transform := { matrix := some ⟨2, 0, 0, 2, 5, 7⟩ }, geometry := some ⟨4⟩ } }

/-- The index of the jam, with both sprites filed under the ellipse. -/
def jamIndex : Index where
  nodes := [
    ⟨⟨0⟩, []⟩,
    ⟨⟨1⟩, [⟨0, .child 0⟩]⟩,
    ⟨⟨2⟩, [⟨1, .child 0⟩]⟩,
    ⟨⟨4⟩, [⟨2, .geometry⟩, ⟨4, .geometry⟩]⟩,
    ⟨⟨3⟩, [⟨1, .child 1⟩]⟩]
  postOrder := [3, 2, 4, 1, 0]

/-- One of the sprites at a place. -/
def jamSample (place : Matrix3x2 (BitVec 32)) : Sample (BitVec 32) where
  transform := place
  opacity := 1
  geometry := .ellipse ⟨0, 0⟩ ⟨3, 3⟩
  trim := ⟨0, 1, 0⟩
  fill := none
  stroke := none
  strokeThickness := 1
  expressions := []

/-- The pass gets as far as the sprite that is frozen. -/
theorem jam_pushDown : pushDown jam = .error (.frozen ⟨3⟩ .spriteShape) jamLeft := by cbv

theorem jam_interrupted :
    Index.build jam = .ok jamIndex ∧ pushDown jam = .error (.frozen ⟨3⟩ .spriteShape) jamLeft ∧
    ∃ mid x m written rest,
      Interrupted jam (.frozen ⟨3⟩ .spriteShape) jamLeft mid x m written rest ∧ ∀ time,
        Agree (Displaced (Strays ⟨mid, time⟩ x m written jam.root .identity)) (jam.sampleAt time)
          (jamLeft.sampleAt time) ∧
        FailsAlike (jam.sampleAt time) (jamLeft.sampleAt time) ∧
        ∀ samples, jam.sampleAt time = .ok samples → (jamLeft.sampleAt time = .ok samples ↔
          ∀ q q', Strays ⟨mid, time⟩ x m written jam.root .identity q q' → q = q') := by
  have hix : Index.build jam = .ok jamIndex := by cbv
  exact ⟨hix, jam_pushDown, pushDown_interrupted hix jam_pushDown⟩

/-- The jammed pass moves the first sprite: twice the matrix takes it to where it did not belong. -/
theorem jam_changes_picture :
    Index.build jam = .ok jamIndex ∧ pushDown jam = .error (.frozen ⟨3⟩ .spriteShape) jamLeft ∧
    jam.sampleAt 0 = .ok [jamSample ⟨2, 0, 0, 2, 5, 7⟩, jamSample ⟨2, 0, 0, 2, 5, 7⟩] ∧
    jamLeft.sampleAt 0 = .ok [jamSample ⟨4, 0, 0, 4, 15, 21⟩, jamSample ⟨2, 0, 0, 2, 5, 7⟩] ∧
    jamLeft.sampleAt 0 ≠ jam.sampleAt 0 := by
  have hix : Index.build jam = .ok jamIndex := by cbv
  have hbefore : jam.sampleAt 0 =
      .ok [jamSample ⟨2, 0, 0, 2, 5, 7⟩, jamSample ⟨2, 0, 0, 2, 5, 7⟩] := by cbv
  have hafter : jamLeft.sampleAt 0 =
      .ok [jamSample ⟨4, 0, 0, 4, 15, 21⟩, jamSample ⟨2, 0, 0, 2, 5, 7⟩] := by cbv
  refine ⟨hix, jam_pushDown, hbefore, hafter, fun hsame => ?_⟩
  rw [hbefore, hafter] at hsame
  have hfirst : (⟨4, 0, 0, 4, 15, 21⟩ : Matrix3x2 (BitVec 32)) = ⟨2, 0, 0, 2, 5, 7⟩ :=
    congrArg Sample.transform (List.cons.inj (Except.ok.inj hsame)).1
  exact absurd (congrArg Matrix3x2.m11 hfirst) (by decide)

end Diorama.Reduction
