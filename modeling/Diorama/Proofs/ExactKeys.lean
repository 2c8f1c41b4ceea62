/-
  Keys are exact.

  Two objects that may be merged have one key if and only if they agree, scalars by their words and
  references by their representatives (`Object.mergeKey?_eq_iff`): the maps that turn an object into
  its key send nothing else to one image.  Spelling the key as a flat list loses nothing of that, as
  long as every reference is indexed (`Merge.spelling?_eq_iff`).

  What the words are is left to the scalars.  In single precision two scalars have one word if they
  have the same bits or are both zeros (`sameWord_float_iff`).
-/
import Mathlib
import Diorama.Proofs.ParallelCopies
import Diorama.Proofs.SpelledKeys

namespace Diorama

/-! ## Keys -/

section Keys

variable {K : Type} {word : K → UInt32} {f : ObjectId → ObjectId} {r : K → K → Prop}
  {e : ObjectId → ObjectId → Prop}

/-- Vectors are told apart component by component, and likewise below. -/
theorem Vec2.map_tellsApart (hword : TellsApart r word) :
    TellsApart (Vec2.Like r) (Vec2.map word) := by
  intro v w
  simp [Vec2.map, hword.iff, Vec2.like_iff]

theorem Vec3.map_tellsApart (hword : TellsApart r word) :
    TellsApart (Vec3.Like r) (Vec3.map word) := by
  intro v w
  simp [Vec3.map, hword.iff, Vec3.like_iff]

theorem Vec4.map_tellsApart (hword : TellsApart r word) :
    TellsApart (Vec4.Like r) (Vec4.map word) := by
  intro v w
  simp [Vec4.map, hword.iff, Vec4.like_iff]

/-- Matrices are told apart entry by entry. -/
theorem Matrix3x2.map_tellsApart (hword : TellsApart r word) :
    TellsApart (Matrix3x2.Like r) (Matrix3x2.map word) := by
  intro m n
  simp [Matrix3x2.map, hword.iff, Matrix3x2.like_iff]

/-- Trims are told apart bound by bound, where an unset bound differs from every set one. -/
theorem Trim.mapScalars_tellsApart (hword : TellsApart r word) :
    TellsApart (Trim.Agrees r) (Trim.mapScalars word) := by
  intro t u
  simp [Trim.mapScalars, hword.option.iff, Trim.agrees_iff]

/-- Pieces of two sorts are told apart whatever their points are. -/
theorem Segment.mapScalars_tellsApart (hword : TellsApart r word) :
    TellsApart (Segment.Like r) (Segment.mapScalars word) := by
  have hpoint := Vec2.map_tellsApart hword
  intro a b
  cases a <;> cases b <;> simp [Segment.mapScalars, hpoint.iff, Segment.like_iff]

/-- Figures are told apart by their starts, their pieces and whether they are closed. -/
theorem Figure.mapScalars_tellsApart (hword : TellsApart r word) :
    TellsApart (Figure.Like r) (Figure.mapScalars word) := by
  have hpoint := Vec2.map_tellsApart hword
  have hsegments := (Segment.mapScalars_tellsApart hword).list
  intro a b
  simp [Figure.mapScalars, hpoint.iff, hsegments.iff, Figure.like_iff]

/-- Outlines are told apart by scalars and by the ids of the geometries they are made of. -/
theorem Outline.map_tellsApart (hword : TellsApart r word) (hids : TellsApart e f) :
    TellsApart (Outline.Agrees r e) fun o => (o.mapIds f).mapScalars word := by
  have hfigures := (Figure.mapScalars_tellsApart hword).list
  have hmatrix := Matrix3x2.map_tellsApart hword
  intro a b
  cases a <;> cases b <;>
    simp [Outline.mapIds, Outline.mapScalars, Outline.Agrees, hfigures.iff, hids.list.iff, hids.iff,
      hmatrix.iff]

/-- Values are told apart by their types first. -/
theorem KeyFrameValue.map_tellsApart (hword : TellsApart r word) (hids : TellsApart e f) :
    TellsApart (KeyFrameValue.Agrees r e) fun v => (v.mapIds f).mapScalars word := by
  have hvector2 := Vec2.map_tellsApart hword
  have hvector3 := Vec3.map_tellsApart hword
  have hvector4 := Vec4.map_tellsApart hword
  intro a b
  cases a <;> cases b <;>
    simp [KeyFrameValue.mapIds, KeyFrameValue.mapScalars, KeyFrameValue.Agrees, hword.iff, hids.iff,
      hvector2.iff, hvector3.iff, hvector4.iff]

/-- Key frames are told apart by place, value and easing. -/
theorem KeyFrame.map_tellsApart (hword : TellsApart r word) (hids : TellsApart e f) :
    TellsApart (KeyFrame.Agrees r e) fun k => (k.mapIds f).mapScalars word := by
  have hvalue := KeyFrameValue.map_tellsApart hword hids
  intro k l
  simp [KeyFrame.mapIds, KeyFrame.mapScalars, hword.iff, hvalue.iff, hids.option.iff,
    KeyFrame.agrees_iff]

theorem KeyFrameAnimation.map_tellsApart (hword : TellsApart r word) (hids : TellsApart e f) :
    TellsApart (KeyFrameAnimation.Agrees r e) fun a => (a.mapIds f).mapScalars word := by
  have hframes := (KeyFrame.map_tellsApart hword hids).list
  intro a b
  simp [KeyFrameAnimation.mapIds, KeyFrameAnimation.mapScalars, Function.comp_def, hframes.iff,
    KeyFrameAnimation.agrees_iff]

/-- Expressions have no scalars, so ids are all that is mapped. -/
theorem ExpressionAnimation.mapIds_tellsApart (hids : TellsApart e f) :
    TellsApart (ExpressionAnimation.Agrees e) (ExpressionAnimation.mapIds f) := by
  have hparameter : TellsApart (Parameter.Agrees e) fun p => { p with object := f p.object } := by
    intro p q
    simp [hids.iff, Parameter.agrees_iff]
  intro a b
  simp [ExpressionAnimation.mapIds, hparameter.list.iff, ExpressionAnimation.agrees_iff]

theorem Animator.mapIds_tellsApart (hids : TellsApart e f) :
    TellsApart (Animator.Agrees e) (Animator.mapIds f) := by
  intro a b
  simp [Animator.mapIds, hids.iff, hids.option.iff, Animator.agrees_iff]

/-- The image of a content tells apart what does not agree, for every kind that may be merged. -/
theorem Content.map_eq_iff (hword : TellsApart r word) (hids : TellsApart e f) {o p : Object K}
    (ho : o.isMergeable = true) (hkind : o.kind = p.kind) :
    (o.content.mapIds f).mapScalars word = (p.content.mapIds f).mapScalars word ↔
      o.content.Agrees r e p.content := by
  have htrim := Trim.mapScalars_tellsApart hword
  have hpoint := Vec2.map_tellsApart hword
  have houtline := Outline.map_tellsApart hword hids
  have hframes := KeyFrameAnimation.map_tellsApart hword hids
  have hexpression := ExpressionAnimation.mapIds_tellsApart hids
  obtain ⟨attached, c⟩ := o
  obtain ⟨attached', d⟩ := p
  cases c <;> first | cases ho | skip
  all_goals cases d <;> cases hkind
  all_goals
    simp [Content.mapIds, Content.mapScalars, Content.Agrees, htrim.iff, hpoint.iff,
      hpoint.option.iff, hids.option.iff, houtline.iff, hframes.iff, hexpression.iff]

/-- Only what may be merged has a key. -/
theorem Object.isMergeable_of_mergeKey? [Scalar K] {o : Object K} {k : MergeKey}
    (h : o.mergeKey? f = some k) : o.isMergeable = true := by
  by_contra hnot
  rw [Object.mergeKey?, if_neg hnot] at h
  cases h

/-- **Objects have one key if and only if they agree.** -/
theorem Object.mergeKey?_eq_iff [Scalar K] (hword : TellsApart r (Scalar.word : K → UInt32))
    (hids : TellsApart e f) {o p : Object K} {k l : MergeKey} (hk : o.mergeKey? f = some k)
    (hl : p.mergeKey? f = some l) : k = l ↔ o.Agrees r e p := by
  have ho := Object.isMergeable_of_mergeKey? hk
  have hanimators := (Animator.mapIds_tellsApart hids).list
  rw [Object.eq_of_mergeKey? hk, Object.eq_of_mergeKey? hl, MergeKey.mk.injEq, hanimators.iff,
    Object.agrees_iff]
  by_cases hkind : o.kind = p.kind
  · rw [Content.map_eq_iff hword hids ho hkind]
  · have hcontent : ¬ o.content.Agrees r e p.content := fun hc => hkind hc.kind_eq
    have hkeys : (o.content.mapIds f).mapScalars Scalar.word ≠
        (p.content.mapIds f).mapScalars (Scalar.word : K → UInt32) := by
      intro heq
      have hkinds := congrArg Content.kind heq
      simp only [Content.kind_mapScalars, Content.kind_mapIds] at hkinds
      exact hkind hkinds
    simp [hcontent, hkeys]

end Keys

/-! ## Keys of indexed scenes -/

/-- Scalars of one word. -/
def SameWord {K : Type} [Scalar K] (x y : K) : Prop := Scalar.word x = Scalar.word y

/-- Floats with the same bits, or both a zero. -/
def SameFloat (x y : Float32) : Prop := x.toBits = y.toBits ∨ ((x == 0) = true ∧ (y == 0) = true)

/-- Floats have one word if they have the same bits or are both zeros. -/
theorem sameWord_float_iff (x y : Float32) : SameWord x y ↔ SameFloat x y := by
  have hzero : (0 : Float32).toBits = 0 := by decide +kernel
  -- only the positive zero has the word that both zeros get
  have hbits : ∀ x : Float32, (x == 0) = false → x.toBits ≠ 0 := by
    intro x hx h
    rw [← hzero, Float32.toBits_inj] at h
    subst h
    exact absurd hx (by decide +kernel)
  have hapart : ∀ x y : Float32, (x == 0) ≠ (y == 0) → x.toBits ≠ y.toBits := by
    intro x y h hxy
    rw [Float32.toBits_inj.mp hxy] at h
    exact h rfl
  show ((if x == 0 then 0 else x.toBits) = if y == 0 then 0 else y.toBits) ↔ SameFloat x y
  have hxy := hapart x y
  unfold SameFloat
  cases hx : x == 0 <;> cases hy : y == 0 <;> rw [hx, hy] at hxy
  · simp
  · simp [hbits x hx, hxy]
  · simp [(hbits y hy).symm, hxy]
  · simp

namespace Merge

variable {K : Type} {s : Scene K} {ix : Index}

/-- Indexed objects are spelled alike if and only if they have one representative. -/
theorem nodeAtom_eq_iff (hix : Index.Sound s ix) (sets : DisjointSets) {a b : ObjectId}
    (ha : a ∈ ix.ids) (hb : b ∈ ix.ids) :
    nodeAtom ix sets a = nodeAtom ix sets b ↔ canonical ix sets a = canonical ix sets b := by
  obtain ⟨p, hp⟩ := List.mem_iff_getElem?.mp ha
  obtain ⟨q, hq⟩ := List.mem_iff_getElem?.mp hb
  have hp' : sets.root p < ix.ids.length :=
    (sets.root_le p).trans_lt (List.getElem?_eq_some_iff.mp hp).1
  have hq' : sets.root q < ix.ids.length :=
    (sets.root_le q).trans_lt (List.getElem?_eq_some_iff.mp hq).1
  unfold nodeAtom canonical
  rw [Index.position?_of_getElem? hix.nodup hp, Index.position?_of_getElem? hix.nodup hq]
  simp only [Atom.node.injEq, List.getD_eq_getElem _ _ hp', List.getD_eq_getElem _ _ hq',
    hix.nodup.getElem_inj_iff]

/-- A reference is never spelled like a property that is not set. -/
theorem nodeAtom_ne_unset (hix : Index.Sound s ix) (sets : DisjointSets) {a : ObjectId}
    (ha : a ∈ ix.ids) : nodeAtom ix sets a ≠ .unset := by
  obtain ⟨p, hp⟩ := List.mem_iff_getElem?.mp ha
  rw [nodeAtom, Index.position?_of_getElem? hix.nodup hp]
  simp

/-- The object where it is indexed, otherwise the root. -/
def indexedOr (s : Scene K) (ix : Index) (id : ObjectId) : ObjectId :=
  if id ∈ ix.ids then id else s.root

/-- Whatever the id is, the object is indexed. -/
theorem indexedOr_mem (hix : Index.Sound s ix) (id : ObjectId) : indexedOr s ix id ∈ ix.ids := by
  unfold indexedOr
  split
  · assumption
  · exact hix.root_mem

theorem indexedOr_of_mem {id : ObjectId} (h : id ∈ ix.ids) : indexedOr s ix id = id := if_pos h

/-- Objects that refer to indexed objects only have one key if and only if they are spelled
alike. -/
theorem spelling?_eq_iff [Scalar K] {r : K → K → Prop} (hix : Index.Sound s ix)
    (hword : TellsApart r (Scalar.word : K → UInt32)) (sets : DisjointSets) {o p : Object K}
    {k l : MergeKey} (ho : ∀ t ∈ o.targets, t ∈ ix.ids) (hp : ∀ t ∈ p.targets, t ∈ ix.ids)
    (hk : o.mergeKey? (canonical ix sets) = some k)
    (hl : p.mergeKey? (canonical ix sets) = some l) :
    o.spelling? (nodeAtom ix sets) = p.spelling? (nodeAtom ix sets) ↔ k = l := by
  -- an object that is not indexed is spelled like an unset one: no such reference is left
  let node (id : ObjectId) : Atom := nodeAtom ix sets (indexedOr s ix id)
  let group (id : ObjectId) : ObjectId := canonical ix sets (indexedOr s ix id)
  have hreflects : Atom.Reflects Scalar.word node r fun i j => group i = group j :=
    ⟨hword, fun i j => nodeAtom_eq_iff hix sets (indexedOr_mem hix i) (indexedOr_mem hix j),
      fun i => nodeAtom_ne_unset hix sets (indexedOr_mem hix i)⟩
  have hspelling : ∀ x : Object K, (∀ t ∈ x.targets, t ∈ ix.ids) →
      x.spelling Scalar.word (nodeAtom ix sets) = x.spelling Scalar.word node := by
    intro x hx
    have hfixed : x.mapIds (indexedOr s ix) = x :=
      Object.mapIds_of_fixed fun t ht => indexedOr_of_mem (hx t ht)
    have hmap := x.spelling_mapIds Scalar.word (nodeAtom ix sets) (indexedOr s ix)
    rwa [hfixed] at hmap
  have hkey : ∀ x : Object K, (∀ t ∈ x.targets, t ∈ ix.ids) →
      x.mergeKey? group = x.mergeKey? (canonical ix sets) := by
    intro x hx
    exact Object.mergeKey?_congr fun t ht =>
      congrArg (canonical ix sets) (indexedOr_of_mem (hx t ht))
  have hmo := Object.isMergeable_of_mergeKey? hk
  have hmp := Object.isMergeable_of_mergeKey? hl
  rw [Object.spelling?, Object.spelling?, if_pos hmo, if_pos hmp, Option.some.injEq, hspelling o ho,
    hspelling p hp, Object.spelling_eq_iff hreflects hmo]
  rw [← hkey o ho] at hk
  rw [← hkey p hp] at hl
  exact (Object.mergeKey?_eq_iff hword (fun _ _ => Iff.rfl) hk hl).symm

/-- **Keys are exact.**  Take any classes of an indexed scene and two reachable objects that have
keys.  The keys are equal if and only if the objects are of one kind and agree in every property and
every animator, with scalars of one word and references to objects of one representative.  The same
is true of the keys spelled as flat lists.  Floats are of one word if they have the same bits or are
both zeros. -/
theorem keys_exact [Scalar K] (hix : Index.build s = .ok ix) (sets : DisjointSets)
    {a b : ObjectId} {o p : Object K} {k l : MergeKey} (ha : a ∈ s.reachable)
    (hb : b ∈ s.reachable) (hgeta : s.get? a = some o) (hgetb : s.get? b = some p)
    (hk : o.mergeKey? (canonical ix sets) = some k)
    (hl : p.mergeKey? (canonical ix sets) = some l) :
    (k = l ↔ o.Agrees SameWord (fun i j => canonical ix sets i = canonical ix sets j) p) ∧
    (o.spelling? (nodeAtom ix sets) = p.spelling? (nodeAtom ix sets) ↔
      o.Agrees SameWord (fun i j => canonical ix sets i = canonical ix sets j) p) ∧
    ∀ x y : Float32, SameWord x y ↔ SameFloat x y := by
  have hsound := Index.sound_of_build hix
  have hclosed : ∀ {id : ObjectId} {x : Object K}, id ∈ s.reachable → s.get? id = some x →
      ∀ t ∈ x.targets, t ∈ ix.ids := by
    intro id x hid hget t ht
    exact hsound.ranked.closed (hsound.mem_ids_iff.mpr hid) (Scene.refers_of_get? hget ht)
  have hword : TellsApart SameWord (Scalar.word : K → UInt32) := fun _ _ => Iff.rfl
  have hkey : k = l ↔ o.Agrees SameWord (fun i j => canonical ix sets i = canonical ix sets j) p :=
    Object.mergeKey?_eq_iff hword (fun _ _ => Iff.rfl) hk hl
  have hspelling := spelling?_eq_iff hsound hword sets (hclosed ha hgeta) (hclosed hb hgetb) hk hl
  exact ⟨hkey, hspelling.trans hkey, sameWord_float_iff⟩

/-- A geometry along a path. -/
def along (start : Float32) (path : ObjectId) : Object Float32 where
  content := .pathGeometry { start := some start } (some path)

/-- Two geometries along two paths; one starts at zero and the other at minus zero. -/
def twins : Scene Float32 where
  objects := #[
    { content := .geometry (.group none [⟨1⟩, ⟨2⟩]) },
    along 0 ⟨3⟩,
    along (-0) ⟨4⟩,
    { content := .path none },
    { content := .path none }]

/-- The objects of the twins as a walk from the root meets them. -/
def twinsIndex : Index where
  nodes := [
    ⟨⟨0⟩, []⟩,
    ⟨⟨1⟩, [⟨0, .source 0⟩]⟩,
    ⟨⟨3⟩, [⟨1, .path⟩]⟩,
    ⟨⟨2⟩, [⟨0, .source 1⟩]⟩,
    ⟨⟨4⟩, [⟨3, .path⟩]⟩]
  postOrder := [2, 1, 4, 3, 0]

/-- The twins have one key once their paths are in one class. -/
theorem twins_exact :
    Index.build twins = .ok twinsIndex ∧
    (along 0 ⟨3⟩).spelling? (nodeAtom twinsIndex ((DisjointSets.singletons 5).union 2 4).2) =
      (along (-0) ⟨4⟩).spelling? (nodeAtom twinsIndex ((DisjointSets.singletons 5).union 2 4).2) ∧
    ¬ (along 0 ⟨3⟩).Agrees SameFloat (fun i j => canonical twinsIndex (.singletons 5) i =
      canonical twinsIndex (.singletons 5) j) (along (-0) ⟨4⟩) := by
  have hix : Index.build twins = .ok twinsIndex := by cbv
  have hsound := Index.sound_of_build hix
  have hone : (⟨1⟩ : ObjectId) ∈ twins.reachable := hsound.mem_ids_iff.mp (by decide)
  have htwo : (⟨2⟩ : ObjectId) ∈ twins.reachable := hsound.mem_ids_iff.mp (by decide)
  -- the key of a twin, by the representative of its path
  let key (path : ObjectId) : MergeKey := ⟨.pathGeometry { start := some 0 } (some path), []⟩
  have hjoined := keys_exact (k := key ⟨3⟩) (l := key ⟨3⟩) hix
    ((DisjointSets.singletons 5).union 2 4).2 hone htwo rfl rfl (by decide +kernel)
    (by decide +kernel)
  have hapart := keys_exact (k := key ⟨3⟩) (l := key ⟨4⟩) hix (.singletons 5) hone htwo rfl rfl
    (by decide +kernel) (by decide +kernel)
  have hsame : (SameFloat : Float32 → Float32 → Prop) = SameWord :=
    funext fun x => funext fun y => propext (hapart.2.2 x y).symm
  refine ⟨hix, hjoined.2.1.mpr (hjoined.1.mp rfl), fun h => ?_⟩
  rw [hsame] at h
  exact absurd (hapart.1.mpr h) (by decide)

end Merge

end Diorama
