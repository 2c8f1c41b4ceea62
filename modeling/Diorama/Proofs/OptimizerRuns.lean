/-
  Runs of the optimizer.

  A run that succeeds has an index, a copy and, unless the tree is kept, a reduction of the copy
  (`optimize_eq_ok_iff`).  Indexing can fail, and copying fails where an object of an unknown kind
  is reachable.  Where animators run animations nothing else can go wrong: the copy passes its
  check, no edit of the reduction is refused, and its rounds come to an end.
-/
import Mathlib
import Diorama.Optimizer.Optimize
import Diorama.Proofs.CopySuccess

namespace Diorama

variable {K : Type} [Scalar K] {s : Scene K} {settings : OptimizerSettings} {out : Optimized K}

/-- The index and the copy that a run went through, and what it reports. -/
structure Scene.Optimizes (s : Scene K) (settings : OptimizerSettings) (ix : Index)
    (copied : Scene K) (out : Optimized K) : Prop where
  index : Index.build s = .ok ix
  copy : Merge.copy s ix (Classes.ofIndex s ix settings) settings = .ok copied
  kept : settings.keepTree = true → out.scene = copied ∧ out.report.reduction = {}
  reduced : settings.keepTree = false →
    Reduction.reduce copied = .ok out.report.reduction out.scene
  inputObjects : out.report.inputObjects = ix.size
  canonicalObjects : out.report.canonicalObjects = (Classes.ofIndex s ix settings).count
  merged : out.report.merged = (Classes.ofIndex s ix settings).merged
  outputObjects : out.report.outputObjects = out.scene.reachable.length

namespace Scene

/-- A scene that is not indexed is not optimised. -/
theorem optimize_of_index_error {e : SceneError} (h : Index.build s = .error e) :
    s.optimize settings = .error e := by
  rw [optimize, h]
  rfl

/-- A scene that is not copied is not optimised. -/
theorem optimize_of_copy_error {ix : Index} {e : SceneError} (hix : Index.build s = .ok ix)
    (h : Merge.copy s ix (Classes.ofIndex s ix settings) settings = .error e) :
    s.optimize settings = .error e := by
  simp only [optimize, hix, h, bind, Except.bind]

/-- What the optimizer makes of a copy. -/
theorem optimize_of_copy {ix : Index} {copied : Scene K} (hix : Index.build s = .ok ix)
    (hcopy : Merge.copy s ix (Classes.ofIndex s ix settings) settings = .ok copied)
    {reduction : Reduction} {scene : Scene K}
    (hkept : settings.keepTree = true → scene = copied ∧ reduction = {})
    (hreduced : settings.keepTree = false → Reduction.reduce copied = .ok reduction scene) :
    s.optimize settings = .ok
      { scene
        report := {
          inputObjects := ix.size
          canonicalObjects := (Classes.ofIndex s ix settings).count
          merged := (Classes.ofIndex s ix settings).merged
          reduction
          outputObjects := scene.reachable.length } } := by
  cases hkeep : settings.keepTree with
  | true =>
    obtain ⟨rfl, rfl⟩ := hkept hkeep
    simp only [optimize, hix, hcopy, hkeep, bind, Except.bind, pure, Except.pure, if_true]
  | false =>
    simp only [optimize, hix, hcopy, hkeep, hreduced hkeep, bind, Except.bind, pure, Except.pure,
      Bool.false_eq_true, if_false]

/-- **An optimiser succeeds exactly by way of an index and a copy.** -/
theorem optimize_eq_ok_iff : s.optimize settings = .ok out ↔
    ∃ ix copied, s.Optimizes settings ix copied out := by
  constructor
  · intro h
    cases hix : Index.build s with
    | error e =>
      rw [optimize_of_index_error hix] at h
      cases h
    | ok ix =>
      cases hcopy : Merge.copy s ix (Classes.ofIndex s ix settings) settings with
      | error e =>
        rw [optimize_of_copy_error hix hcopy] at h
        cases h
      | ok copied =>
        cases hkeep : settings.keepTree with
        | true =>
          rw [optimize_of_copy hix hcopy (fun _ => ⟨rfl, rfl⟩) (by simp [hkeep])] at h
          obtain rfl := Except.ok.inj h
          exact ⟨ix, copied, hix, hcopy, fun _ => ⟨rfl, rfl⟩, by simp [hkeep], rfl, rfl, rfl, rfl⟩
        | false =>
          cases hreduce : Reduction.reduce copied with
          | error e next =>
            simp only [optimize, hix, hcopy, hkeep, hreduce, bind, Except.bind] at h
            cases h
          | ok reduction scene =>
            rw [optimize_of_copy hix hcopy (by simp [hkeep]) fun _ => hreduce] at h
            obtain rfl := Except.ok.inj h
            exact ⟨ix, copied, hix, hcopy, by simp [hkeep], fun _ => hreduce, rfl, rfl, rfl, rfl⟩
  · rintro ⟨ix, copied, h⟩
    rw [optimize_of_copy h.index h.copy h.kept h.reduced]
    obtain ⟨scene, inputObjects, canonicalObjects, merged, reduction, outputObjects⟩ := out
    rw [← h.inputObjects, ← h.canonicalObjects, ← h.merged, ← h.outputObjects]

/-- **When a run succeeds.**  Of every scene whose reachable animators run animations, and whatever
the settings: a run succeeds exactly if the scene is indexed and no object of an unknown kind is
reachable;  if it is not indexed, the run fails with the error of indexing; and otherwise it can
only fail in copying, at an object of an unknown kind that is reachable. -/
theorem optimize_succeeds_iff (settings : OptimizerSettings) (h : Merge.RunsAnimations s) :
    ((∃ out, s.optimize settings = .ok out) ↔ (∃ ix, Index.build s = .ok ix) ∧
      ∀ id ∈ s.reachable, ∀ o name, s.get? id = some o → o.content ≠ .external name) ∧
    (∀ e, Index.build s = .error e → s.optimize settings = .error e) ∧
    ∀ ix e, Index.build s = .ok ix → s.optimize settings = .error e →
      ∃ id ∈ s.reachable, ∃ o name stage, s.get? id = some o ∧ o.content = .external name ∧
        e = .unsupported id name stage ∧ stage.text = "graph copy" := by
  -- a copy can always be reduced
  have hfinish : ∀ ix copied, Index.build s = .ok ix →
      Merge.copy s ix (Classes.ofIndex s ix settings) settings = .ok copied →
      ∃ out, s.optimize settings = .ok out := by
    intro ix copied hix hcopy
    cases hkeep : settings.keepTree with
    | true => exact ⟨_, optimize_of_copy hix hcopy (fun _ => ⟨rfl, rfl⟩) (by simp [hkeep])⟩
    | false =>
      obtain ⟨reduction, scene, hreduce⟩ := Merge.reduce_copy_succeeds hix hcopy h
      exact ⟨_, optimize_of_copy hix hcopy (by simp [hkeep]) fun _ => hreduce⟩
  refine ⟨⟨?_, ?_⟩, fun e => optimize_of_index_error, fun ix e hix herror => ?_⟩
  · rintro ⟨out, hout⟩
    obtain ⟨ix, copied, hrun⟩ := optimize_eq_ok_iff.mp hout
    refine ⟨⟨ix, hrun.index⟩, fun id hid o name hget => ?_⟩
    have hids := (Index.sound_of_build hrun.index).mem_ids_iff.mpr hid
    exact Merge.known_of_copy hrun.index hrun.copy hids hget name
  · rintro ⟨⟨ix, hix⟩, hknown⟩
    rcases Merge.copy_cases settings hix with
      ⟨copied, hcopy⟩ | ⟨id, hid, o, name, hget, hname, -⟩
    · exact hfinish ix copied hix hcopy
    · have hreachable := (Index.sound_of_build hix).mem_ids_iff.mp hid
      exact absurd hname (hknown id hreachable o name hget)
  · rcases Merge.copy_cases settings hix with
      ⟨copied, hcopy⟩ | ⟨id, hid, o, name, hget, hname, hcopy⟩
    · obtain ⟨out, hout⟩ := hfinish ix copied hix hcopy
      rw [hout] at herror
      cases herror
    · rw [optimize_of_copy_error hix hcopy] at herror
      obtain rfl := Except.error.inj herror
      exact ⟨id, (Index.sound_of_build hix).mem_ids_iff.mp hid, o, name, .copying, hget, hname, rfl,
        rfl⟩

/-- A sprite inside a container, beside an empty one, with a brush that runs an animation. -/
def carousel : Scene (BitVec 32) where
  objects := #[
    { content := .shapeVisual {} [⟨1⟩, ⟨2⟩] },
    { content := .containerShape { matrix := some ⟨2, 0, 0, 3, 7, 8⟩ } [⟨3⟩] },
    { content := .containerShape {} [] },
    { content := .spriteShape { fillBrush := some ⟨4⟩ } },
    { content := .colorBrush (some (.rgb 255 0 0))
      attached := { animators := [⟨"Color", ⟨5⟩, none⟩] } },
    { content := .expressionAnimation { expression := "fade" } }]

/-- The objects of the carousel as a walk from the root meets them. -/
def carouselIndex : Index where
  nodes := [
    ⟨⟨0⟩, []⟩,
    ⟨⟨1⟩, [⟨0, .child 0⟩]⟩,
    ⟨⟨3⟩, [⟨1, .child 0⟩]⟩,
    ⟨⟨4⟩, [⟨2, .fillBrush⟩]⟩,
    ⟨⟨5⟩, [⟨3, .animation 0⟩]⟩,
    ⟨⟨2⟩, [⟨0, .child 1⟩]⟩]
  postOrder := [4, 3, 2, 1, 5, 0]

/-- The carousel is optimised. -/
theorem carousel_optimize_succeeds :
    Merge.RunsAnimations carousel ∧ Index.build carousel = .ok carouselIndex ∧
    ∃ out, carousel.optimize {} = .ok out := by
  have hreachable : carousel.reachable = [⟨0⟩, ⟨1⟩, ⟨3⟩, ⟨4⟩, ⟨5⟩, ⟨2⟩] := by cbv
  have hanimations : Merge.RunsAnimations carousel := by
    intro id hid o hget a ha
    rw [hreachable] at hid
    fin_cases hid <;> cases hget <;> cases ha
    · exact ⟨_, rfl, rfl⟩
    · rename_i hnone
      cases hnone
  have hix : Index.build carousel = .ok carouselIndex := by cbv
  refine ⟨hanimations, hix, (optimize_succeeds_iff {} hanimations).1.mpr ⟨⟨_, hix⟩, ?_⟩⟩
  intro id hid o name hget hname
  rw [hreachable] at hid
  fin_cases hid <;> cases hget <;> cases hname

end Scene
end Diorama
