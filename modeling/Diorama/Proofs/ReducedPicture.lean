/-
  A reduced scene shows the same sprites.

  Every edit keeps `Reduced`, so every pass does, and so do the loops around them: dead containers
  are dropped round by round, and pushing down and splicing take turns.  An indexed scene is ranked
  by its index, which is where a reduction starts.

  What that says about places depends on the relation between them.  Here nothing is asked of
  places, and so nothing of scalars either, apart from one law: a visual that is spliced multiplied
  the opacity by one.
-/
import Mathlib
import Diorama.Proofs.Indexability
import Diorama.Proofs.PushedMatrices
import Diorama.Proofs.WordScalars

namespace Diorama

namespace Reduction

variable {K : Type} [Scalar K] {R : Matrix3x2 K → Matrix3x2 K → Prop} {A : ObjectId → Prop}
  {rank : ObjectId → Nat} {s₀ s s' : Scene K} {done : Reduction}

/-! ## Passes -/

/-- Folding keeps the picture, as each of its steps does. -/
theorem foldTransforms_preserves (hR : Placing R) :
    Editing.Preserves (Reduced R A rank s₀) foldTransforms := by
  refine .get_bind fun s _ => ?_
  exact .sumOver fun x _ => foldObject_preserves hR s.readByExpressions x

/-- Splicing keeps the picture; factors of opacity that are left out are one. -/
theorem splice_preserves (hR : Placing R) (hone : ∀ k : K, k * 1 = k) :
    Editing.Preserves (Reduced R A rank s₀) splice := by
  refine .get_bind fun s _ => ?_
  exact .sumOver fun x _ => spliceObject_preserves hR hone s.readByExpressions x

/-- A pass of pushing down starts from the references of the scene that it is given. -/
theorem pushing_of_sumOver (hR : Placing R) (h : Reduced R A rank s₀ s) {ids : List ObjectId}
    (hids : ∀ x ∈ ids, x ∈ s.reachable)
    (hrun : Editing.sumOver (pushObject fun c => s.slotTargets.count c == 1 &&
      !s.readByExpressions.contains c) ids s = .ok done s') : Pushing R A rank s₀ s s' := by
  have hsingle : ∀ c, (s.slotTargets.count c == 1 && !s.readByExpressions.contains c) = true →
      s.slotTargets.count c = 1 := by
    intro c hc
    exact beq_iff_eq.mp (Bool.and_eq_true_iff.mp hc).1
  exact Editing.Preserves.sumOver (fun x hx => pushObject_preserves hR h hsingle (hids x hx)) s s'
    done ⟨h, rfl, fun _ => rfl⟩ hrun

/-- Pushing matrices down keeps the picture. -/
theorem pushDown_preserves (hR : Placing R) : Editing.Preserves (Reduced R A rank s₀) pushDown := by
  intro s s' done h hrun
  obtain ⟨_, _, ⟨⟩, hrun⟩ := Editing.exists_of_bind hrun
  exact (pushing_of_sumOver hR h (fun _ hx => hx) hrun).reduced

/-! ## Rounds -/

/-- Each round drops what is dead when it begins. -/
theorem dropDeadFrom_preserves (hR : Placing R) (before : Reduction) :
    Editing.Preserves (Reduced R A rank s₀) (dropDeadFrom before) := by
  intro s s' done h hrun
  refine (dropDeadFrom_cases (fun t t' n ht hsum => ?_) h hrun).1
  exact (Editing.Preserves.sumOver (fun x _ => dropDead_preserves hR (deadContainers t) x) t t' n
    ⟨ht, allDead_deadContainers t⟩ hsum).1

theorem coalesce_preserves (hR : Placing R) (hone : ∀ k : K, k * 1 = k) :
    Editing.Preserves (Reduced R A rank s₀) coalesce := by
  refine (pushDown_preserves hR).bind fun pushed => ?_
  refine (splice_preserves hR hone).bind fun spliced => ?_
  exact .pure _

/-- Any number of rounds keeps the picture. -/
theorem coalesceFor_preserves (hR : Placing R) (hone : ∀ k : K, k * 1 = k) (limit : Nat) :
    Editing.Preserves (Reduced R A rank s₀) (coalesceFor limit) := by
  induction limit with
  | zero =>
    intro s s' done _ hrun
    nomatch hrun
  | succ limit ih =>
    refine (coalesce_preserves hR hone).bind fun round => ?_
    split
    · exact .pure _
    · exact ih.bind fun others => .pure _

/-- **A reduction keeps the picture**, as far as the relation between places goes. -/
theorem reduce_preserves (hR : Placing R) (hone : ∀ k : K, k * 1 = k) :
    Editing.Preserves (Reduced R A rank s₀) reduce := by
  refine (dropDeadFrom_preserves hR {}).bind fun dropped => ?_
  refine (foldTransforms_preserves hR).bind fun folded => ?_
  refine .get_bind fun s _ => ?_
  refine (coalesceFor_preserves hR hone (roundLimit s)).bind fun coalesced => ?_
  exact .pure _

/-- What a reduction of an indexed scene leaves of its picture. -/
theorem reduce_picture (hR : Placing R) (hone : ∀ k : K, k * 1 = k) {ix : Index}
    (hix : Index.build s = .ok ix) (hrun : reduce s = .ok done s') (time : Int64) :
    Agree (List.Forall₂ (Sample.Moved R)) (s.sampleAt time) (s'.sampleAt time) := by
  have hsound := Index.sound_of_build hix
  have hstart := Reduced.start hR hsound.ranked hsound.root_mem
  exact (reduce_preserves hR hone s s' done hstart hrun).picture time

/-! ## The specimen -/

/-- The specimen without its dead container, and with its transforms folded. -/
def specimenFolded : Scene (BitVec 32) where
  root := ⟨0⟩
  objects := #[
    { content := .shapeVisual {
        matrix := some ⟨⟨1, 0, 0, 0⟩, ⟨0, 1, 0, 0⟩, ⟨0, 0, 1, 0⟩, ⟨5, 6, 0, 1⟩⟩ } [⟨1⟩] },
    { content := .containerShape { matrix := some ⟨2, 0, 0, 3, 7, 8⟩ } [⟨3⟩] },
    { content := .containerShape {} [] },
    { content := .spriteShape {
        transform := { matrix := some ⟨0, 1, -1, 0, 0, 0⟩ }
        geometry := some ⟨4⟩, fillBrush := some ⟨5⟩, strokeBrush := some ⟨6⟩ } },
    { content := .ellipseGeometry {} none (some ⟨4, 4⟩) },
    { content := .colorBrush (some (.rgb 255 0 0)) },
    { content := .colorBrush (some (.rgb 255 0 0)) }]

/-- The specimen reduced: the sprite has the matrix of the container, and the visual holds the
sprite. -/
def specimenReduced : Scene (BitVec 32) where
  root := ⟨0⟩
  objects := #[
    { content := .shapeVisual {
        matrix := some ⟨⟨1, 0, 0, 0⟩, ⟨0, 1, 0, 0⟩, ⟨0, 0, 1, 0⟩, ⟨5, 6, 0, 1⟩⟩ } [⟨3⟩] },
    { content := .containerShape {} [⟨3⟩] },
    { content := .containerShape {} [] },
    { content := .spriteShape {
        transform := { matrix := some ⟨0, 3, -2, 0, 7, 8⟩ }
        geometry := some ⟨4⟩, fillBrush := some ⟨5⟩, strokeBrush := some ⟨6⟩ } },
    { content := .ellipseGeometry {} none (some ⟨4, 4⟩) },
    { content := .colorBrush (some (.rgb 255 0 0)) },
    { content := .colorBrush (some (.rgb 255 0 0)) }]

/-- There is something to do for every pass, and once each. -/
theorem specimen_reduce : reduce specimen = .ok ⟨1, 1, 1, 1, 1⟩ specimenReduced := by
  have hfirst : (removeDead >>= fun dropped => foldTransforms >>= fun folded =>
      pure (dropped, folded)) specimen = .ok (⟨1, 0, 0, 0, 0⟩, ⟨0, 1, 1, 0, 0⟩) specimenFolded := by
    cbv
  -- the bound on the rounds is a large number, which is computed apart from the rounds
  have hlimit : roundLimit specimenFolded = 281500747300872 := rfl
  have hrounds : coalesceFor 281500747300872 specimenFolded =
      .ok ⟨0, 0, 0, 1, 1⟩ specimenReduced := by cbv
  obtain ⟨dropped, t, hdrop, hrest⟩ := Editing.exists_of_bind hfirst
  obtain ⟨folded, u, hfold, hdone⟩ := Editing.exists_of_bind hrest
  cases hdone
  exact reduce_of_stages hdrop hfold hlimit hrounds

/-! ## Sprites -/

/-- **No sprite is lost, repeated or reordered.**  Of every scene that is indexed and reduced, the
scene before and after fail to be sampled at the same times, and at every other time they show the
same samples one by one, in every field but the place.  Of scalars only `k * 1 = k` is used. -/
theorem reduce_sampleAt_agree (hone : ∀ k : K, k * 1 = k) {ix : Index}
    (hix : Index.build s = .ok ix) (hreduce : reduce s = .ok done s') (time : Int64) :
    Agree (List.Forall₂ fun a b => b = { a with transform := b.transform }) (s.sampleAt time)
      (s'.sampleAt time) :=
  (reduce_picture Placing.anywhere hone hix hreduce time).mono fun _ _ hmoved =>
    hmoved.imp fun _ _ hab => hab.rest

/-- The reduced specimen looks like the specimen, up to places. -/
theorem specimenReduced_agrees :
    (∀ k : BitVec 32, k * 1 = k) ∧ Index.build specimen = .ok specimenIndex ∧
    reduce specimen = .ok ⟨1, 1, 1, 1, 1⟩ specimenReduced ∧
    Agree (List.Forall₂ fun a b => b = { a with transform := b.transform }) (specimen.sampleAt 0)
      (specimenReduced.sampleAt 0) := by
  have hone : ∀ k : BitVec 32, k * 1 = k := fun k => BitVec.mul_one k
  exact ⟨hone, specimen_build, specimen_reduce,
    reduce_sampleAt_agree hone specimen_build specimen_reduce 0⟩

end Reduction
end Diorama
