/-
  Running the optimizer on what it has made.

  The result of a run has nothing left to reduce and sets no property to its default value.  If
  nothing in it can be merged, a second run copies it under other ids, and nothing else: the copy is
  settled too, and as many objects are reachable in it.

  But something may be left to merge.  Objects are compared as they are given and lose their default
  values when they are copied, so two objects that differ only in whether a default is spelled out
  are taken for different ones and have equal copies.  Such objects are `Twins`, and they are all
  that keeps a second run from changing nothing.
-/
import Mathlib
import Diorama.Proofs.Projection
import Diorama.Proofs.ReductionSettles
import Diorama.Proofs.RenamedScenes

namespace Diorama

variable {K : Type} [Scalar K]

/-! ## Default values are unset once -/

/-- A default that was dropped is not there to be dropped again. -/
theorem dropDefault_dropDefault {α : Type} [BEq α] (default : α) (v : Option α) :
    dropDefault default (dropDefault default v) = dropDefault default v := by
  cases v with
  | none => rfl
  | some a =>
    unfold dropDefault
    by_cases h : (a == default) = true <;> simp [h]

/-- A content without its defaults has none left. -/
theorem Content.withoutDefaults_isLean (c : Content K) : c.withoutDefaults.IsLean := by
  unfold Content.IsLean
  cases c with
  | geometry outline =>
    cases outline <;>
      simp [Content.withoutDefaults, Outline.withoutDefaults, dropDefault_dropDefault]
  | _ =>
    simp [Content.withoutDefaults, Visual.withoutDefaults, ShapeTransform.withoutDefaults,
      Sprite.withoutDefaults, Stroke.withoutDefaults, Trim.withoutDefaults, dropDefault_dropDefault]

namespace Merge

variable {s t u out : Scene K} {ix again : Index} {c c' : Classes} {settings : OptimizerSettings}
  {order : List Nat}

/-- Where defaults are dropped, all copies are without them. -/
theorem isLean_copyObject (hdefaults : settings.keepDefaults = false) (f : ObjectId → ObjectId)
    (r : Nat) (o : Object K) : (copyObject c settings f r o).content.IsLean := by
  rw [Content.IsLean, content_copyObject, Content.withoutDefaults_mapIds, Object.elided, hdefaults]
  exact congrArg (Content.mapIds f) o.content.withoutDefaults_isLean

/-- What sets no default value is only renamed, where texts are kept. -/
theorem copyObject_of_isLean (htexts : settings.ignoreComments = false) {o : Object K}
    (hlean : o.content.IsLean) (f : ObjectId → ObjectId) (r : Nat) :
    copyObject c settings f r o = o.mapIds f := by
  have hcontent : (copyObject c settings f r o).content = o.content.mapIds f := by
    rw [content_copyObject, Object.elided]
    split
    · rfl
    · exact congrArg (Content.mapIds f) hlean
  have hattached : (copyObject c settings f r o).attached = o.attached.mapIds f := by
    simp [copyObject, htexts, Object.mapIds]
  generalize copyObject c settings f r o = x at hcontent hattached
  obtain ⟨attached, content⟩ := x
  subst hcontent hattached
  rfl

/-- **A scene in which nothing is merged is only renamed by copying**, if it sets no default values
and texts are kept. -/
theorem Copied.renamed (h : Copied s ix settings c order out)
    (htexts : settings.ignoreComments = false) (hself : ∀ p, c.representative p = p)
    (hlean : ∀ a ∈ s.reachable, ∀ o, s.get? a = some o → o.content.IsLean) :
    s.Renamed (copyId ix c order) out where
  root := h.root
  root_mem := h.sound.mem_ids_iff.mp h.sound.root_mem
  closed ha hab :=
    h.sound.mem_ids_iff.mp (h.sound.ranked.closed (h.sound.mem_ids_iff.mpr ha) hab)
  object := by
    intro a o ha ho
    obtain ⟨p, hpos, hmem⟩ := h.covered (h.sound.mem_ids_iff.mpr ha)
    have hat : objectAt? s ix (c.representative p) = some o := by
      rw [hself]
      exact objectAt?_of_position? hpos ho
    rw [h.get?_copyId hpos hmem hat, copyObject_of_isLean htexts (hlean a ha o ho)]
  inj := by
    intro a b ha hb heq
    obtain ⟨p, hp, -⟩ := exists_position h.sound ha
    obtain ⟨q, hq, -⟩ := exists_position h.sound hb
    have hsame := (h.copyId_eq_iff hp hq).mp heq
    rw [hself, hself] at hsame
    have hida := Index.position?_eq_some hp
    rw [hsame, Index.position?_eq_some hq] at hida
    exact (Option.some.inj hida).symm

/-! ## What a run leaves -/

/-- Representatives have different copies. -/
theorem Copied.eq_of_copyId_eq (h : Copied s ix settings c order out) {a b : ObjectId}
    (ha : c.representativeOf? ix a = some a) (hb : c.representativeOf? ix b = some b)
    (heq : copyId ix c order a = copyId ix c order b) : a = b := by
  obtain ⟨p, hp, -⟩ := Option.bind_eq_some_iff.mp ha
  obtain ⟨q, hq, -⟩ := Option.bind_eq_some_iff.mp hb
  have hsame := (h.representativeOf?_eq_iff hp hq).mpr ((h.copyId_eq_iff hp hq).mp heq)
  rw [ha, hb] at hsame
  exact Option.some.inj hsame

section

variable {rank : ObjectId → Nat} (h : Copied s ix settings c order t)
  (horder : copyOrder s ix c = .ok order)
  (hu : Reduction.Underway (fun y => y.index < t.size) rank t u)

include h horder hu

/-- An object of the result was copied from a representative. -/
theorem exists_origin {y : ObjectId} {q : Object K} (hq : u.get? y = some q) :
    ∃ r a o, a ∈ ix.ids ∧ c.representativeOf? ix a = some a ∧ s.get? a = some o ∧
      (∀ name, o.content ≠ .external name) ∧ copyId ix c order a = y ∧
      (copyObject c settings (copyId ix c order) r o).Remains q := by
  obtain ⟨g, he, hg⟩ := hu.edited
  rw [he.object] at hq
  obtain ⟨p, hp, rfl⟩ := Option.map_eq_some_iff.mp hq
  obtain ⟨r, a, o, hr, ha, ho, hknown, hcopyId, hcopy⟩ :=
    h.exists_source horder (Scene.index_lt_size hp)
  obtain rfl := Option.some.inj (hp.symm.trans hcopy)
  have hself : c.representativeOf? ix a = some a := by
    rw [representativeOf?_of_position? (Index.position?_of_getElem? h.sound.nodup ha),
      h.representative_of_mem horder (List.mem_of_getElem? hr), ha]
  exact ⟨r, a, o, List.mem_of_getElem? ha, hself, ho, hknown, hcopyId, hg y _ hp⟩

/-- Something remains of the copy of a representative, if that copy is reachable in the result. -/
theorem exists_remains {a : ObjectId} {o : Object K} (ha : c.representativeOf? ix a = some a)
    (ho : s.get? a = some o) (hreach : copyId ix c order a ∈ u.reachable) :
    ∃ r q, u.get? (copyId ix c order a) = some q ∧
      (copyObject c settings (copyId ix c order) r o).Remains q := by
  obtain ⟨q, hq⟩ := Scene.get?_of_mem_reachable hreach
  obtain ⟨r, b, o', -, hb, ho', -, hcopy, hremains⟩ := exists_origin h horder hu hq
  obtain rfl := h.eq_of_copyId_eq hb ha hcopy
  obtain rfl := Option.some.inj (ho.symm.trans ho')
  exact ⟨r, q, hq, hremains⟩

/-- No external object is left after a run. -/
theorem known_left {y : ObjectId} {q : Object K} (hq : u.get? y = some q) (name : String) :
    q.content ≠ .external name := by
  obtain ⟨r, a, o, -, -, -, hknown, -, hremains⟩ := exists_origin h horder hu hq
  intro hname
  cases hdrawn : (copyObject c settings (copyId ix c order) r o).content.isDrawn with
  | true =>
    have hstill := hremains.isDrawn.trans hdrawn
    rw [hname] at hstill
    cases hstill
  | false =>
    rw [hremains.undrawn hdrawn] at hname
    exact known_copyObject _ _ _ _ _ hknown name hname

/-- No default is left after a run. -/
theorem isLean_left (hdefaults : settings.keepDefaults = false) {y : ObjectId} {q : Object K}
    (hq : u.get? y = some q) : q.content.IsLean := by
  obtain ⟨r, a, o, -, -, -, -, -, hremains⟩ := exists_origin h horder hu hq
  exact hremains.lean (isLean_copyObject hdefaults _ r o)

/-- The result of a run is indexed. -/
theorem build_left : ∃ again, Index.build u = .ok again := by
  refine Index.build_of_ranked hu.ranked hu.root fun y q _ hq => ?_
  obtain ⟨r, a, o, ha, -, ho, -, -, hremains⟩ := exists_origin h horder hu hq
  cases hdrawn : (copyObject c settings (copyId ix c order) r o).content.isDrawn with
  | true =>
    have hstill := hremains.isDrawn.trans hdrawn
    unfold Index.checkFrames
    split
    · rename_i hc
      rw [hc] at hstill
      cases hstill
    · rfl
  | false =>
    rw [hremains.undrawn hdrawn]
    obtain ⟨w, hw, hframes⟩ := h.sound.object a ha
    obtain rfl := Option.some.inj (ho.symm.trans hw)
    exact checkFrames_copyObject c settings (copyId ix c order) r o hframes

end

/-! ## Twins -/

/-- Two representatives whose copies are both reachable in a scene, and whose keys are the same once
default values are unset.  The keys name copies. -/
structure Twins (s : Scene K) (ix : Index) (c : Classes) (order : List Nat) (out : Scene K)
    (a b : ObjectId) : Prop where
  apart : a ≠ b
  representatives : c.representativeOf? ix a = some a ∧ c.representativeOf? ix b = some b
  reachable : copyId ix c order a ∈ out.reachable ∧ copyId ix c order b ∈ out.reachable
  sameKey : ∃ o o' k, s.get? a = some o ∧ s.get? b = some o' ∧
    o.isEligible {} = true ∧ o'.isEligible {} = true ∧
    (o.elided {}).mergeKey? (copyId ix c order) = some k ∧
    (o'.elided {}).mergeKey? (copyId ix c order) = some k

/-- What is left of the copy of an object has the key of the object without default values. -/
theorem key_left_iff {r : Nat} {o q : Object K} {k : MergeKey}
    (hremains : (copyObject c {} (copyId ix c order) r o).Remains q) :
    q.isEligible {} = true ∧ q.mergeKey? id = some k ↔
      o.isEligible {} = true ∧ (o.elided {}).mergeKey? (copyId ix c order) = some k := by
  have hkey : (copyObject c {} (copyId ix c order) r o).mergeKey? id =
      (o.elided {}).mergeKey? (copyId ix c order) := mergeKey?_copyObject c {} _ r o id
  cases hdrawn : (copyObject c {} (copyId ix c order) r o).content.isDrawn with
  | true =>
    -- what is drawn has no key
    rw [← hkey, mergeKey?_of_isDrawn hdrawn, mergeKey?_of_isDrawn (hremains.isDrawn.trans hdrawn)]
    simp
  | false => rw [hremains.undrawn hdrawn, isEligible_copyObject, hkey]

/-- **The objects of the result have different keys exactly if there are no twins.** -/
theorem distinct_left_iff {rank : ObjectId → Nat} (h : Copied s ix {} c order t)
    (horder : copyOrder s ix c = .ok order)
    (hu : Reduction.Underway (fun y => y.index < t.size) rank t u) :
    u.Distinct {} ↔ ¬∃ a b, Twins s ix c order u a b := by
  constructor
  · rintro hdistinct ⟨a, b, htwins⟩
    obtain ⟨o, o', k, ho, ho', heligible, heligible', hk, hk'⟩ := htwins.sameKey
    obtain ⟨hself, hself'⟩ := htwins.representatives
    obtain ⟨hreach, hreach'⟩ := htwins.reachable
    obtain ⟨r, q, hq, hremains⟩ := exists_remains h horder hu hself ho hreach
    obtain ⟨r', q', hq', hremains'⟩ := exists_remains h horder hu hself' ho' hreach'
    obtain ⟨hqeligible, hqk⟩ := (key_left_iff hremains).mpr ⟨heligible, hk⟩
    obtain ⟨hqeligible', hqk'⟩ := (key_left_iff hremains').mpr ⟨heligible', hk'⟩
    have hcopy := hdistinct _ hreach _ hreach' q q' k hq hq' hqeligible hqeligible' hqk hqk'
    exact htwins.apart (h.eq_of_copyId_eq hself hself' hcopy)
  · intro hnone y hy z hz q q' k hq hq' heligible heligible' hk hk'
    obtain ⟨r, a, o, -, hself, ho, -, rfl, hremains⟩ := exists_origin h horder hu hq
    obtain ⟨r', b, o', -, hself', ho', -, rfl, hremains'⟩ := exists_origin h horder hu hq'
    obtain ⟨hoeligible, hok⟩ := (key_left_iff hremains).mp ⟨heligible, hk⟩
    obtain ⟨hoeligible', hok'⟩ := (key_left_iff hremains').mp ⟨heligible', hk'⟩
    by_contra hne
    exact hnone ⟨a, b, fun hab => hne (congrArg _ hab), ⟨hself, hself'⟩, ⟨hy, hz⟩,
      o, o', k, ho, ho', hoeligible, hoeligible', hok, hok'⟩

end Merge

/-! ## The second run -/

namespace Scene

variable {s : Scene K} {ix : Index} {order : List Nat} {once : Optimized K}

/-- What a run makes is what is left of its copy, also if the copy is not reduced. -/
theorem Optimizes.underway {settings : OptimizerSettings} {copied : Scene K}
    (h : s.Optimizes settings ix copied once) :
    ∃ order rank, Merge.copyOrder s ix (Classes.ofIndex s ix settings) = .ok order ∧
      Merge.Copied s ix settings (Classes.ofIndex s ix settings) order copied ∧
      Reduction.Underway (fun y => y.index < copied.size) rank copied once.scene := by
  obtain ⟨order, horder, rfl, -⟩ := Merge.copy_eq_ok_iff.mp h.copy
  have hcopied := Merge.copied_assembled h.index horder
  have hranked := hcopied.ranked_copy horder
  have hroot := hcopied.index_copyId_lt hcopied.sound.root_mem
  rw [← hcopied.root] at hroot
  cases hkeep : settings.keepTree with
  | true =>
    rw [(h.kept hkeep).1]
    exact ⟨order, _, horder, hcopied, .start hranked hroot⟩
  | false =>
    have hleft := (Reduction.reduce_settles hranked hroot (h.reduced hkeep)).1
    exact ⟨order, _, horder, hcopied, hleft⟩

/-- **A run only renames** a settled scene of different objects that set no default values. -/
theorem optimize_of_settled {again : Index} (hagain : Index.build s = .ok again)
    (hsettled : Reduction.Settled s) (hdistinct : s.Distinct {})
    (hlean : ∀ a o, s.get? a = some o → o.content.IsLean)
    (hknown : ∀ a o name, s.get? a = some o → o.content ≠ .external name) :
    ∃ out, s.optimize {} = .ok out ∧ out.report.merged = [] ∧
      out.report.outputObjects = s.reachable.length := by
  have hsound := Index.sound_of_build hagain
  have hbot : Merge.IsCongruence s again {} ⊥ := (Merge.isCongruence_bot_iff hsound).mpr hdistinct
  have hmerged : (Classes.ofIndex s again {}).merged = [] :=
    (Classes.merged_eq_nil_iff _).mpr ((Classes.merges_eq_nil_iff hsound).mpr hbot)
  rcases Merge.copy_cases {} hagain with ⟨out, hcopy⟩ | ⟨y, -, q, name, hq, hname, -⟩
  · obtain ⟨order, horder, rfl, -⟩ := Merge.copy_eq_ok_iff.mp hcopy
    have hrenamed := (Merge.copied_assembled hagain horder).renamed rfl
      (Classes.representative_of_distinct hsound hbot) fun a _ => hlean a
    have hreduce := Reduction.reduce_of_settled (hrenamed.settled hsettled)
    refine ⟨_, optimize_of_copy hagain hcopy (by simp) fun _ => hreduce, hmerged, ?_⟩
    exact hrenamed.perm_reachable.length_eq.trans (List.length_map _)
  · exact absurd hname (hknown y q name hq)

/-- **When a second run changes nothing.**  The result of a run is indexed and has nothing left to
reduce.  Nothing in it is merged, and a second run succeeds, merges nothing and leaves as many
objects, exactly if the first run left no twins: two objects in different classes that differ in
nothing but whether default values are spelled out. -/
theorem optimize_again_iff (hix : Index.build s = .ok ix)
    (horder : Merge.copyOrder s ix (Classes.ofIndex s ix {}) = .ok order)
    (h : s.optimize {} = .ok once) :
    Reduction.reduce once.scene = .ok {} once.scene ∧
    ∃ again, Index.build once.scene = .ok again ∧
      ((Classes.ofIndex once.scene again {}).merged = [] ∧
        (∃ twice, once.scene.optimize {} = .ok twice ∧ twice.report.merged = [] ∧
          twice.report.outputObjects = once.report.outputObjects) ↔
      ¬∃ a b, Merge.Twins s ix (Classes.ofIndex s ix {}) order once.scene a b) := by
  obtain ⟨ix', copied, hrun⟩ := optimize_eq_ok_iff.mp h
  obtain rfl := Except.ok.inj (hix.symm.trans hrun.index)
  obtain ⟨order', horder', rfl, -⟩ := Merge.copy_eq_ok_iff.mp hrun.copy
  obtain rfl := Except.ok.inj (horder.symm.trans horder')
  have hcopied := Merge.copied_assembled hix horder
  have hroot : (Merge.assembled s ix (Classes.ofIndex s ix {}) {} order).root.index <
      (Merge.assembled s ix (Classes.ofIndex s ix {}) {} order).size := by
    rw [hcopied.root]
    exact hcopied.index_copyId_lt hcopied.sound.root_mem
  -- the first run ends settled, and what it left came from the copy
  obtain ⟨hleft, hsettled⟩ :=
    Reduction.reduce_settles (hcopied.ranked_copy horder) hroot (hrun.reduced rfl)
  obtain ⟨again, hagain⟩ := Merge.build_left hcopied horder hleft
  have hsound := Index.sound_of_build hagain
  have htwins := Merge.distinct_left_iff hcopied horder hleft
  have hmerged : (Classes.ofIndex once.scene again {}).merged = [] ↔ once.scene.Distinct {} := by
    rw [Classes.merged_eq_nil_iff, Classes.merges_eq_nil_iff hsound,
      Merge.isCongruence_bot_iff hsound]
  refine ⟨Reduction.reduce_of_settled hsettled, again, hagain, ?_⟩
  rw [← htwins]
  -- what is left to merge is the question whether the objects are distinct
  constructor
  · rintro ⟨hnothing, -⟩
    exact hmerged.mp hnothing
  · intro hdistinct
    obtain ⟨twice, htwice, hnothing, hcount⟩ := optimize_of_settled hagain hsettled hdistinct
      (fun y q hq => Merge.isLean_left hcopied horder hleft rfl hq)
      (fun y q name hq => Merge.known_left hcopied horder hleft hq name)
    exact ⟨hmerged.mpr hdistinct, twice, htwice, hnothing, hcount.trans hrun.outputObjects.symm⟩

/-- Two sprites with the same ellipse, one of which spells out that the centre is the origin. -/
def rims : Scene (BitVec 32) where
  objects := #[
    { content := .shapeVisual {} [⟨1⟩, ⟨2⟩] },
    { content := .spriteShape { geometry := some ⟨3⟩ } },
    { content := .spriteShape { geometry := some ⟨4⟩ } },
    { content := .ellipseGeometry {} (some ⟨0, 0⟩) (some ⟨5, 5⟩) },
    { content := .ellipseGeometry {} none (some ⟨5, 5⟩) }]

/-- What a run makes of them: the same ellipse twice. -/
def rimsOnce : Scene (BitVec 32) where
  root := ⟨4⟩
  objects := #[
    { content := .ellipseGeometry {} none (some ⟨5, 5⟩) },
    { content := .spriteShape { geometry := some ⟨0⟩ } },
    { content := .ellipseGeometry {} none (some ⟨5, 5⟩) },
    { content := .spriteShape { geometry := some ⟨2⟩ } },
    { content := .shapeVisual {} [⟨1⟩, ⟨3⟩] }]

/-- What a second run makes of that. -/
def rimsTwice : Scene (BitVec 32) where
  root := ⟨3⟩
  objects := #[
    { content := .ellipseGeometry {} none (some ⟨5, 5⟩) },
    { content := .spriteShape { geometry := some ⟨0⟩ } },
    { content := .spriteShape { geometry := some ⟨0⟩ } },
    { content := .shapeVisual {} [⟨1⟩, ⟨2⟩] }]

/-- The index of the rims. -/
def rimsIndex : Index where
  nodes := [
    ⟨⟨0⟩, []⟩,
    ⟨⟨1⟩, [⟨0, .child 0⟩]⟩,
    ⟨⟨3⟩, [⟨1, .geometry⟩]⟩,
    ⟨⟨2⟩, [⟨0, .child 1⟩]⟩,
    ⟨⟨4⟩, [⟨3, .geometry⟩]⟩]
  postOrder := [2, 1, 4, 3, 0]

/-- The index of the rims after the first run. -/
def rimsAgain : Index where
  nodes := [
    ⟨⟨4⟩, []⟩,
    ⟨⟨1⟩, [⟨0, .child 0⟩]⟩,
    ⟨⟨0⟩, [⟨1, .geometry⟩]⟩,
    ⟨⟨3⟩, [⟨0, .child 1⟩]⟩,
    ⟨⟨2⟩, [⟨3, .geometry⟩]⟩]
  postOrder := [2, 1, 4, 3, 0]

theorem rims_reduce : Reduction.reduce rimsOnce = .ok {} rimsOnce := by
  have hdrop : Reduction.removeDead rimsOnce = .ok {} rimsOnce := by cbv
  have hfold : Reduction.foldTransforms rimsOnce = .ok {} rimsOnce := by cbv
  have hlimit : Reduction.roundLimit rimsOnce = 68820189192 := rfl
  have hrounds : Reduction.coalesceFor 68820189192 rimsOnce = .ok {} rimsOnce := by cbv
  exact Reduction.reduce_of_stages hdrop hfold hlimit hrounds

theorem rimsTwice_reduce : Reduction.reduce rimsTwice = .ok {} rimsTwice := by
  have hdrop : Reduction.removeDead rimsTwice = .ok {} rimsTwice := by cbv
  have hfold : Reduction.foldTransforms rimsTwice = .ok {} rimsTwice := by cbv
  have hlimit : Reduction.roundLimit rimsTwice = 1080045576 := rfl
  have hrounds : Reduction.coalesceFor 1080045576 rimsTwice = .ok {} rimsTwice := by cbv
  exact Reduction.reduce_of_stages hdrop hfold hlimit hrounds

/-- **A second run may merge**: the result of the first has five objects and that of the second
four. -/
theorem rims_merge_again : ∃ once again twice,
    rims.optimize {} = .ok once ∧ Index.build once.scene = .ok again ∧
    (Classes.ofIndex once.scene again {}).merged = [(.ellipseGeometry, 1)] ∧
    once.scene.optimize {} = .ok twice ∧ twice.report.merged = [(.ellipseGeometry, 1)] ∧
    once.report.outputObjects = 5 ∧ twice.report.outputObjects = 4 := by
  have hix : Index.build rims = .ok rimsIndex := by cbv
  have hagain : Index.build rimsOnce = .ok rimsAgain := by cbv
  have hcopy :
      Merge.copy rims rimsIndex (Classes.ofIndex rims rimsIndex {}) {} = .ok rimsOnce := by cbv
  have hcopyAgain : Merge.copy rimsOnce rimsAgain (Classes.ofIndex rimsOnce rimsAgain {}) {} =
      .ok rimsTwice := by cbv
  exact ⟨_, _, _, optimize_of_copy hix hcopy (by simp) fun _ => rims_reduce, hagain, by cbv,
    optimize_of_copy hagain hcopyAgain (by simp) fun _ => rimsTwice_reduce, by cbv, by cbv, by cbv⟩

/-- The carousel as it is copied. -/
def carouselCopy : Scene (BitVec 32) where
  root := ⟨5⟩
  objects := #[
    { content := .expressionAnimation { expression := "fade" } },
    { content := .colorBrush (some (.rgb 255 0 0))
      attached := { animators := [⟨"Color", ⟨0⟩, none⟩] } },
    { content := .spriteShape { fillBrush := some ⟨1⟩ } },
    { content := .containerShape { matrix := some ⟨2, 0, 0, 3, 7, 8⟩ } [⟨2⟩] },
    { content := .containerShape {} [] },
    { content := .shapeVisual {} [⟨3⟩, ⟨4⟩] }]
  frozen := [⟨0⟩]

/-- The copy without its dead container. -/
def carouselDropped : Scene (BitVec 32) where
  root := ⟨5⟩
  objects := #[
    { content := .expressionAnimation { expression := "fade" } },
    { content := .colorBrush (some (.rgb 255 0 0))
      attached := { animators := [⟨"Color", ⟨0⟩, none⟩] } },
    { content := .spriteShape { fillBrush := some ⟨1⟩ } },
    { content := .containerShape { matrix := some ⟨2, 0, 0, 3, 7, 8⟩ } [⟨2⟩] },
    { content := .containerShape {} [] },
    { content := .shapeVisual {} [⟨3⟩] }]
  frozen := [⟨0⟩]

/-- What a run makes of the carousel: the sprite has the matrix, and the visual holds the sprite. -/
def carouselOnce : Optimized (BitVec 32) where
  scene := {
    root := ⟨5⟩
    objects := #[
      { content := .expressionAnimation { expression := "fade" } },
      { content := .colorBrush (some (.rgb 255 0 0))
        attached := { animators := [⟨"Color", ⟨0⟩, none⟩] } },
      { content := .spriteShape {
          transform := { matrix := some ⟨2, 0, 0, 3, 7, 8⟩ }, fillBrush := some ⟨1⟩ } },
      { content := .containerShape {} [⟨2⟩] },
      { content := .containerShape {} [] },
      { content := .shapeVisual {} [⟨2⟩] }]
    frozen := [⟨0⟩] }
  report := {
    inputObjects := 6
    canonicalObjects := 6
    merged := []
    reduction := ⟨1, 0, 0, 1, 1⟩
    outputObjects := 4 }

theorem carousel_copy :
    Merge.copy carousel carouselIndex (Classes.ofIndex carousel carouselIndex {}) {} =
      .ok carouselCopy := by cbv

/-- One container is dead, one matrix is pushed down and one container is spliced. -/
theorem carousel_reduce :
    Reduction.reduce carouselCopy = .ok ⟨1, 0, 0, 1, 1⟩ carouselOnce.scene := by
  have hdrop : Reduction.removeDead carouselCopy = .ok ⟨1, 0, 0, 0, 0⟩ carouselDropped := by cbv
  have hreachable : carouselDropped.reachable = [⟨5⟩, ⟨3⟩, ⟨2⟩, ⟨1⟩, ⟨0⟩] := by cbv
  have hfold : Reduction.foldTransforms carouselDropped = .ok {} carouselDropped := by
    refine Editing.sumOver_of_idle fun x hx => Reduction.foldObject_of_idle fun _ o ho _ => ?_
    rw [hreachable] at hx
    fin_cases hx <;> cases ho <;> rfl
  have hlimit : Reduction.roundLimit carouselDropped = 4399657320456 := rfl
  have hrounds : Reduction.coalesceFor 4399657320456 carouselDropped =
      .ok ⟨0, 0, 0, 1, 1⟩ carouselOnce.scene := by cbv
  exact Reduction.reduce_of_stages hdrop hfold hlimit hrounds

theorem carousel_optimize_again :
    Index.build carousel = .ok carouselIndex ∧
    Merge.copyOrder carousel carouselIndex (Classes.ofIndex carousel carouselIndex {}) =
      .ok [4, 3, 2, 1, 5, 0] ∧
    carousel.optimize {} = .ok carouselOnce ∧
    Reduction.reduce carouselOnce.scene = .ok {} carouselOnce.scene ∧
    ∃ again, Index.build carouselOnce.scene = .ok again ∧
      (Classes.ofIndex carouselOnce.scene again {}).merged = [] ∧
      ∃ twice, carouselOnce.scene.optimize {} = .ok twice ∧ twice.report.merged = [] ∧
        twice.report.outputObjects = carouselOnce.report.outputObjects := by
  have hix : Index.build carousel = .ok carouselIndex := by cbv
  have horder : Merge.copyOrder carousel carouselIndex
      (Classes.ofIndex carousel carouselIndex {}) = .ok [4, 3, 2, 1, 5, 0] := by cbv
  have honce : carousel.optimize {} = .ok carouselOnce := by
    rw [optimize_of_copy hix carousel_copy (by simp) fun _ => carousel_reduce]
    cbv
  obtain ⟨hreduce, again, hagain, hiff⟩ := optimize_again_iff hix horder honce
  refine ⟨hix, horder, honce, hreduce, again, hagain, hiff.mpr ?_⟩
  -- only the brush and the animation have keys, and they are of different kinds
  have hkeyed : ∀ {f x w k}, Classes.representativeOf? (Classes.ofIndex carousel carouselIndex {})
      carouselIndex x = some x → carousel.get? x = some w → (w.elided {}).mergeKey? f = some k →
      x = ⟨4⟩ ∧ k.content.kind = .colorBrush ∨ x = ⟨5⟩ ∧ k.content.kind = .expressionAnimation := by
    intro f x w k hself hw hk
    obtain ⟨p, -, hx⟩ := Option.bind_eq_some_iff.mp hself
    have hkind := Object.kind_of_mergeKey? hk
    have hmem : x ∈ [⟨0⟩, ⟨1⟩, ⟨3⟩, ⟨4⟩, ⟨5⟩, ⟨2⟩] := List.mem_of_getElem? hx
    fin_cases hmem <;> cases hw
    · cases hk
    · cases hk
    · cases hk
    · exact .inl ⟨rfl, hkind⟩
    · exact .inr ⟨rfl, hkind⟩
    · cases hk
  rintro ⟨a, b, htwins⟩
  obtain ⟨o, o', k, ho, ho', -, -, hk, hk'⟩ := htwins.sameKey
  obtain ⟨hself, hself'⟩ := htwins.representatives
  rcases hkeyed hself ho hk with ⟨rfl, hkind⟩ | ⟨rfl, hkind⟩
  · rcases hkeyed hself' ho' hk' with ⟨rfl, -⟩ | ⟨-, hkind'⟩
    · exact htwins.apart rfl
    · rw [hkind] at hkind'
      cases hkind'
  · rcases hkeyed hself' ho' hk' with ⟨-, hkind'⟩ | ⟨rfl, -⟩
    · rw [hkind] at hkind'
      cases hkind'
    · exact htwins.apart rfl

end Scene
end Diorama
