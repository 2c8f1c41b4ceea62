/-
  Sharing and duplicates.

  Put a clone of an object at the end of the arena and lead some of the slots that hold the object
  to the clone.  If the object may be merged, the optimizer makes the same of both scenes: the same
  objects at the same ids, the same root and the same frozen objects.

  It does not matter which slots are led to the clone.  Objects above that were equal may hold the
  clone and the original now, and become equal again only after these are merged; the clone may be
  met before the original and represent the class in its place.  All of that is contained in one
  fact: read the clone as the original, and the scene with the clone folds onto the scene without it
  (`Duplicated.folded`).
-/
import Mathlib
import Diorama.Proofs.FoldedScenes

namespace Diorama

variable {K : Type}

/-- Reads an id as another one. -/
def ObjectId.readAs (clone original id : ObjectId) : ObjectId := if id = clone then original else id

/-- A clone of an object stands at the end of the arena, and some slots that held the object hold
the clone.  Read the clone as the object, and every other object is what it was. -/
structure Scene.Duplicated (original clone : ObjectId) (s s' : Scene K) : Prop where
  root : s'.root = s.root
  place : clone.index = s.size
  size : s'.size = s.size + 1
  cloned : s'.get? clone = s.get? original
  object {a : ObjectId} {o : Object K} : s.get? a = some o → ∃ o', s'.get? a = some o' ∧
    o'.mapIds (.readAs clone original) = o.mapIds (.readAs clone original)

theorem ObjectId.readAs_clone (clone original : ObjectId) :
    readAs clone original clone = original :=
  if_pos rfl

theorem ObjectId.readAs_of_ne {clone original id : ObjectId} (h : id ≠ clone) :
    readAs clone original id = id :=
  if_neg h

/-- Whether an object is plain is decided without its ids. -/
theorem Object.isPlain_mapIds (f : ObjectId → ObjectId) (o : Object K) :
    (o.mapIds f).isPlain = o.isPlain := by
  rw [isPlain, isPlain, isMergeable_mapIds]
  rfl

namespace Scene.Duplicated

variable {original clone : ObjectId} {s s' : Scene K} {ix : Index} {o : Object K}
  (h : s.Duplicated original clone s') (hix : ix.Sound s)

include h hix

/-- The clone is no object of the scene. -/
theorem ne_clone {a : ObjectId} (ha : a ∈ ix.ids) : a ≠ clone := by
  rintro rfl
  obtain ⟨x, hx, -⟩ := hix.object a ha
  have hlt := index_lt_size hx
  have hplace := h.place
  omega

/-- Objects of the scene do not refer to the clone, so that they are read as they are. -/
theorem mapIds_eq {a : ObjectId} {x : Object K} (ha : a ∈ ix.ids) (hx : s.get? a = some x) :
    x.mapIds (.readAs clone original) = x :=
  Object.mapIds_of_fixed fun _ ht =>
    ObjectId.readAs_of_ne (h.ne_clone hix (hix.ranked.closed ha (refers_of_get? hx ht)))

/-- What is read as an object of the scene is that object, once the clone is read as the
original. -/
theorem exists_object {a : ObjectId} (ha : .readAs clone original a ∈ ix.ids) : ∃ x,
    s'.get? a = some x ∧
      s.get? (.readAs clone original a) = some (x.mapIds (.readAs clone original)) := by
  obtain ⟨x, hx, -⟩ := hix.object _ ha
  have hsame := h.mapIds_eq hix ha hx
  by_cases hclone : a = clone
  · subst hclone
    rw [ObjectId.readAs_clone] at hx ⊢
    exact ⟨x, h.cloned.trans hx, hx.trans (congrArg some hsame.symm)⟩
  · rw [ObjectId.readAs_of_ne hclone] at hx ⊢
    obtain ⟨y, hy, heq⟩ := h.object hx
    exact ⟨y, hy, by rw [heq, hsame, hx]⟩

/-- What the new scene reaches is read as something indexed. -/
theorem readAs_mem_ids {a : ObjectId} (ha : s'.Reaches s'.root a) :
    .readAs clone original a ∈ ix.ids := by
  induction ha with
  | refl =>
    rw [h.root, ObjectId.readAs_of_ne (h.ne_clone hix hix.root_mem)]
    exact hix.root_mem
  | @tail a b _ hab ih =>
    obtain ⟨x, hx, himage⟩ := h.exists_object hix ih
    rw [Refers, targetsOf_of_get? hx] at hab
    refine hix.ranked.closed ih (refers_of_get? himage ?_)
    rw [Object.targets_mapIds]
    exact List.mem_map_of_mem hab

/-- **The scene with the clone folds onto the scene without it.** -/
theorem folded (hget : s.get? original = some o) (hplain : o.isPlain = true) :
    s'.Folded (.readAs clone original) s where
  root := by rw [h.root, ObjectId.readAs_of_ne (h.ne_clone hix hix.root_mem)]
  object ha := by
    obtain ⟨x, hx, himage⟩ := h.exists_object hix (h.readAs_mem_ids hix ha)
    rw [hx, himage]
    rfl
  plain := by
    intro a b x ha _ hab hne hx
    have hmem := h.readAs_mem_ids hix (reaches_of_mem_reachable ha)
    -- one of the two is the clone, so both are read as the original
    have horiginal : ObjectId.readAs clone original a = original := by
      by_cases hclone : a = clone
      · rw [hclone, ObjectId.readAs_clone]
      · by_cases hclone' : b = clone
        · rw [hab, hclone', ObjectId.readAs_clone]
        · rw [ObjectId.readAs_of_ne hclone, ObjectId.readAs_of_ne hclone'] at hab
          exact absurd hab hne
    obtain ⟨y, hy, himage⟩ := h.exists_object hix hmem
    obtain rfl := Option.some.inj (hx.symm.trans hy)
    rw [horiginal, hget] at himage
    rw [← Object.isPlain_mapIds (.readAs clone original) x, ← Option.some.inj himage]
    exact hplain
  size := by
    have hsize := h.size
    omega

end Scene.Duplicated

/-! ## The optimizer -/

/-- **Sharing and duplicates cannot be told apart after a run.**  Take a scene that is indexed and
an object that may be merged: of a kind that is ever merged, with an empty property bag and no text,
and, if it is a brush, with no animator but one of its colour.  Put a clone of it at the end of the
arena and lead any of the slots that hold it to the clone.  Whatever the settings, a run fails on
both scenes, or it succeeds on both and makes the same scene of them:  the same objects at the same
ids, the same root and the same frozen objects. -/
theorem Scene.optimize_duplicated [Scalar K] {s s' : Scene K} {original clone : ObjectId}
    {ix : Index} {o : Object K} (hix : Index.build s = .ok ix) (hget : s.get? original = some o)
    (hplain : o.isPlain = true) (h : s.Duplicated original clone s')
    (settings : OptimizerSettings) :
    Agree (fun out out' => out'.scene = out.scene) (s.optimize settings)
      (s'.optimize settings) := by
  have hfolded := h.folded (Index.sound_of_build hix) hget hplain
  exact (hfolded.optimize_agree hix settings).symm fun _ _ heq => heq.symm

/-- A sprite with two brushes that share an animation. -/
def unison : Scene (BitVec 32) where
  objects := #[
    { content := .spriteShape { fillBrush := some ⟨1⟩, strokeBrush := some ⟨2⟩ } },
    { content := .colorBrush (some (.rgb 255 0 0))
      attached := { animators := [⟨"Color", ⟨3⟩, none⟩] } },
    { content := .colorBrush (some (.rgb 255 0 0))
      attached := { animators := [⟨"Color", ⟨3⟩, none⟩] } },
    { content := .expressionAnimation { expression := "fade" } }]

/-- The same sprite, with a clone of the animation for the brush that is visited first. -/
def canon : Scene (BitVec 32) where
  objects := #[
    { content := .spriteShape { fillBrush := some ⟨1⟩, strokeBrush := some ⟨2⟩ } },
    { content := .colorBrush (some (.rgb 255 0 0))
      attached := { animators := [⟨"Color", ⟨4⟩, none⟩] } },
    { content := .colorBrush (some (.rgb 255 0 0))
      attached := { animators := [⟨"Color", ⟨3⟩, none⟩] } },
    { content := .expressionAnimation { expression := "fade" } },
    { content := .expressionAnimation { expression := "fade" } }]

/-- The index of unison, with both brushes filed under the animation. -/
def unisonIndex : Index where
  nodes := [
    ⟨⟨0⟩, []⟩,
    ⟨⟨1⟩, [⟨0, .fillBrush⟩]⟩,
    ⟨⟨3⟩, [⟨1, .animation 0⟩, ⟨3, .animation 0⟩]⟩,
    ⟨⟨2⟩, [⟨0, .strokeBrush⟩]⟩]
  postOrder := [2, 1, 3, 0]

/-- What a run makes of the sprite where its tree is kept: one brush and one animation. -/
def unisonOnce : Optimized (BitVec 32) where
  scene := Merge.duetCopy
  report := {
    inputObjects := 4
    canonicalObjects := 3
    merged := [(.colorBrush, 1)]
    reduction := {}
    outputObjects := 3 }

/-- Canon is unison with a clone of the animation. -/
theorem canon_duplicates : unison.Duplicated ⟨3⟩ ⟨4⟩ canon where
  root := rfl
  place := rfl
  size := rfl
  cloned := rfl
  object := by
    rintro ⟨w⟩ o ho
    have hlt : w.toNat < 4 := Scene.index_lt_size ho
    obtain rfl | rfl | rfl | rfl : w = 0 ∨ w = 1 ∨ w = 2 ∨ w = 3 := by
      simp only [← UInt32.toNat_inj]
      show w.toNat = 0 ∨ w.toNat = 1 ∨ w.toNat = 2 ∨ w.toNat = 3
      omega
    all_goals
      cases ho
      exact ⟨_, rfl, rfl⟩

/-- The clone is met before the original and the brushes differ until both are merged; a run makes
the same of both scenes. -/
theorem unison_optimize_canon :
    Index.build unison = .ok unisonIndex ∧ unison.Duplicated ⟨3⟩ ⟨4⟩ canon ∧
    unison.optimize { keepTree := true } = .ok unisonOnce ∧
    ∃ out, canon.optimize { keepTree := true } = .ok out ∧ out.scene = unisonOnce.scene := by
  have hix : Index.build unison = .ok unisonIndex := by cbv
  have hrun : unison.optimize { keepTree := true } = .ok unisonOnce := by cbv
  have hagree := Scene.optimize_duplicated hix rfl rfl canon_duplicates { keepTree := true }
  rw [hrun] at hagree
  refine ⟨hix, canon_duplicates, hrun, ?_⟩
  generalize canon.optimize { keepTree := true } = run at hagree ⊢
  cases hagree with
  | ok hscene => exact ⟨_, rfl, hscene⟩

end Diorama
