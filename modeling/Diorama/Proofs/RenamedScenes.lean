/-
  The same scene under other ids.

  A scene is renamed if each of its reachable objects is found in another scene under another id,
  with all its references renamed, and no two under the same id.  Then the other scene reaches the
  renamed objects and nothing else, its slots refer to renamed objects equally often, and its
  expressions read renamed objects.

  What an edit looks at is the content of objects, the number of slots and what is read, none of
  which depends on ids.  So a scene is settled under other ids if it is settled (`Renamed.settled`).
-/
import Mathlib.Data.List.Perm.Basic
import Diorama.Proofs.EditedObjects
import Diorama.Proofs.PushedMatrices
import Diorama.Proofs.Renaming
import Diorama.Proofs.SettledScenes

namespace Diorama

variable {K : Type} (f : ObjectId → ObjectId)

/-! ## What edits look at -/

namespace Content

variable (c : Content K)

/-- Children are listed under their new ids, in the same order. -/
theorem children_mapIds : (c.mapIds f).children = c.children.map f := by
  cases c <;> rfl

/-- Whether an object holds a list of shapes does not depend on ids. -/
theorem shapes?_mapIds : (c.mapIds f).shapes? = c.shapes?.map (List.map f) := by
  cases c <;> rfl

/-- A renamed expression reads the renamed objects. -/
theorem read_mapIds : (c.mapIds f).read = c.read.map f := by
  cases c with
  | expressionAnimation a =>
    simp [Content.mapIds, Content.read, ExpressionAnimation.mapIds]
  | _ => rfl

end Content

/-- Renaming neither attaches anything nor takes it off. -/
theorem Attachments.isEmpty_mapIds (a : Attachments K) : (a.mapIds f).isEmpty = a.isEmpty := by
  simp [Attachments.isEmpty, Attachments.mapIds, Attachments.hasText]

/-- Which properties are driven does not depend on ids. -/
theorem Attachments.animatesAny_mapIds (a : Attachments K) (properties : List String) :
    (a.mapIds f).animatesAny properties = a.animatesAny properties := by
  simp [Attachments.animatesAny, Attachments.mapIds, Animator.mapIds, Function.comp_def]

namespace Reduction

variable (o : Object K)

/-- Ids have no part in whether an object is dead. -/
theorem isDead_mapIds : isDead (o.mapIds f) = isDead o := by
  obtain ⟨attached, content⟩ := o
  cases content with
  | containerShape t cs => cases cs <;> rfl
  | _ => rfl

/-- Ids have no part in whether a shape can take a matrix over. -/
theorem accepts_mapIds : accepts (o.mapIds f) = accepts o := by
  obtain ⟨attached, content⟩ := o
  cases content with
  | containerShape t cs =>
    simp [accepts, Object.mapIds, Content.mapIds, Attachments.animatesAny_mapIds]
  | spriteShape a =>
    simp [accepts, Object.mapIds, Content.mapIds, Sprite.mapIds, Attachments.animatesAny_mapIds]
  | _ => rfl

/-- A container that sets nothing but a matrix holds the renamed shapes and the same matrix. -/
theorem matrixContainer?_mapIds :
    matrixContainer? (o.mapIds f) = (matrixContainer? o).map fun p => (p.1, p.2.map f) := by
  obtain ⟨attached, content⟩ := o
  cases content with
  | containerShape t cs =>
    simp only [matrixContainer?, Object.mapIds, Content.mapIds, Attachments.isEmpty_mapIds]
    split
    · cases t.matrix <;> rfl
    · rfl
  | _ => rfl

/-- What a container leaves behind when it is spliced is its renamed list. -/
theorem spliceable?_mapIds (inShapes : Bool) :
    spliceable? inShapes (o.mapIds f) = (spliceable? inShapes o).map (List.map f) := by
  obtain ⟨attached, content⟩ := o
  cases content with
  | containerShape t cs =>
    cases inShapes with
    | true =>
      simp only [spliceable?, Object.mapIds, Content.mapIds, Attachments.isEmpty_mapIds]
      split <;> rfl
    | false => rfl
  | containerVisual v cs =>
    cases inShapes with
    | true => rfl
    | false =>
      have hunset : (v.mapIds f).isUnset = v.isUnset := by
        simp [Visual.isUnset, Visual.isMoreThanMatrix, Visual.isSeparate, Visual.mapIds]
      simp only [spliceable?, Object.mapIds, Content.mapIds, Attachments.isEmpty_mapIds, hunset]
      split <;> rfl
  | _ => cases inShapes <;> rfl

/-- A content that does not fold, does not fold under other ids either. -/
theorem foldContent?_mapIds [Scalar K] {c : Content K} (h : foldContent? c = none) :
    foldContent? (c.mapIds f) = none := by
  cases c with
  | containerVisual v cs => exact if_neg (Bool.eq_false_iff.mp (eq_false_of_ite_eq_none h))
  | shapeVisual v cs => exact if_neg (Bool.eq_false_iff.mp (eq_false_of_ite_eq_none h))
  | containerShape t cs => exact if_neg (Bool.eq_false_iff.mp (eq_false_of_ite_eq_none h))
  | spriteShape a => exact if_neg (Bool.eq_false_iff.mp (eq_false_of_ite_eq_none h))
  | _ => rfl

end Reduction

/-! ## Renamed scenes -/

/-- The reachable objects of a scene are found in another one under other ids. -/
structure Scene.Renamed (f : ObjectId → ObjectId) (s s' : Scene K) : Prop where
  root : s'.root = f s.root
  root_mem : s.root ∈ s.reachable
  closed {a b : ObjectId} : a ∈ s.reachable → s.Refers a b → b ∈ s.reachable
  object {a : ObjectId} {o : Object K} :
    a ∈ s.reachable → s.get? a = some o → s'.get? (f a) = some (o.mapIds f)
  inj {a b : ObjectId} : a ∈ s.reachable → b ∈ s.reachable → f a = f b → a = b

namespace Scene.Renamed

variable {f} {s s' : Scene K} (h : s.Renamed f s')

include h

/-- The objects of the other scene that are reachable are the renamed ones. -/
theorem mem_reachable_iff {y : ObjectId} : y ∈ s'.reachable ↔ ∃ a ∈ s.reachable, f a = y := by
  constructor
  · intro hy
    have hreach := Scene.reaches_of_mem_reachable hy
    clear hy
    induction hreach with
    | refl => exact ⟨s.root, h.root_mem, h.root.symm⟩
    | @tail b c _ hbc ih =>
      obtain ⟨a, ha, rfl⟩ := ih
      obtain ⟨o, ho⟩ := Scene.get?_of_mem_reachable ha
      rw [Refers, targetsOf_of_get? (h.object ha ho), Object.targets_mapIds] at hbc
      obtain ⟨d, hd, rfl⟩ := List.mem_map.mp hbc
      exact ⟨d, h.closed ha (refers_of_get? ho hd), rfl⟩
  · rintro ⟨a, ha, rfl⟩
    have hreach := Scene.reaches_of_mem_reachable ha
    clear ha
    -- every object on the way is reachable itself
    have hboth : a ∈ s.reachable ∧ f a ∈ s'.reachable := by
      induction hreach with
      | refl =>
        obtain ⟨o, ho⟩ := Scene.get?_of_mem_reachable h.root_mem
        have hroot := h.object h.root_mem ho
        rw [← h.root] at hroot ⊢
        exact ⟨h.root_mem, Scene.root_mem_reachable hroot⟩
      | @tail b c _ hbc ih =>
        obtain ⟨hb, hfb⟩ := ih
        have hc := h.closed hb hbc
        obtain ⟨o, ho, hmem⟩ := Scene.exists_get?_of_refers hbc
        obtain ⟨p, hp⟩ := Scene.get?_of_mem_reachable hc
        refine ⟨hc, Scene.mem_reachable_of_refers hfb ?_ (h.object hc hp)⟩
        refine refers_of_get? (h.object hb ho) ?_
        rw [Object.targets_mapIds]
        exact List.mem_map_of_mem hmem
    exact hboth.2

/-- The reachable objects of a renamed scene are the renamed ones, in an order of their own. -/
theorem perm_reachable : s'.reachable.Perm (s.reachable.map f) := by
  have hnodup : (s.reachable.map f).Nodup :=
    (reachable_nodup s).map_on fun a ha b hb => h.inj ha hb
  refine (List.perm_ext_iff_of_nodup (reachable_nodup s') hnodup).mpr fun y => ?_
  rw [h.mem_reachable_iff, List.mem_map]

/-- Slots refer to renamed objects equally often. -/
theorem count_slotTargets {x : ObjectId} (hx : x ∈ s.reachable) :
    s'.slotTargets.count (f x) = s.slotTargets.count x := by
  have hperm : s'.slotTargets.Perm (s.slotTargets.map f) := by
    refine (h.perm_reachable.flatMap_right s'.targetsOf).trans ?_
    rw [List.flatMap_map, slotTargets, List.map_flatMap]
    refine List.Perm.of_eq (List.flatMap_congr fun a ha => ?_)
    obtain ⟨o, ho⟩ := Scene.get?_of_mem_reachable ha
    rw [targetsOf_of_get? (h.object ha ho), targetsOf_of_get? ho, Object.targets_mapIds]
  rw [hperm.count_eq, List.count, List.count, List.countP_map]
  refine List.countP_congr fun t ht => ?_
  obtain ⟨a, ha, hat⟩ := List.mem_flatMap.mp ht
  simp only [Function.comp_apply, beq_iff_eq]
  exact ⟨h.inj (h.closed ha hat) hx, congrArg f⟩

/-- An object is read by expressions exactly if the renamed one is. -/
theorem mem_readByExpressions_iff {x : ObjectId} (hx : x ∈ s.reachable) :
    f x ∈ s'.readByExpressions ↔ x ∈ s.readByExpressions := by
  rw [Reduction.mem_readByExpressions, Reduction.mem_readByExpressions]
  constructor
  · rintro ⟨y, hy, q, hq, hread⟩
    obtain ⟨a, ha, rfl⟩ := h.mem_reachable_iff.mp hy
    obtain ⟨o, ho⟩ := Scene.get?_of_mem_reachable ha
    obtain rfl := Option.some.inj ((h.object ha ho).symm.trans hq)
    rw [Object.mapIds, Content.read_mapIds] at hread
    obtain ⟨t, ht, hsame⟩ := List.mem_map.mp hread
    have htarget : t ∈ o.targets := Object.mem_targets_of_mem_read ht
    obtain rfl := h.inj (h.closed ha (refers_of_get? ho htarget)) hx hsame
    exact ⟨a, ha, o, ho, ht⟩
  · rintro ⟨a, ha, o, ho, hread⟩
    refine ⟨f a, h.mem_reachable_iff.mpr ⟨a, ha, rfl⟩, _, h.object ha ho, ?_⟩
    rw [Object.mapIds, Content.read_mapIds]
    exact List.mem_map_of_mem hread

/-- An object has one holder exactly if the renamed one has. -/
theorem isSingle_eq {x : ObjectId} (hx : x ∈ s.reachable) :
    Reduction.isSingle s' (f x) = Reduction.isSingle s x := by
  have hread : s'.readByExpressions.contains (f x) = s.readByExpressions.contains x := by
    rw [Bool.eq_iff_iff, List.contains_iff_mem, List.contains_iff_mem]
    exact h.mem_readByExpressions_iff hx
  rw [Reduction.isSingle, Reduction.isSingle, h.count_slotTargets hx, hread]

/-- What is found at a reachable id of the other scene is a renamed object. -/
theorem exists_source {y : ObjectId} (hy : y ∈ s'.reachable) {q : Object K}
    (hq : s'.get? y = some q) :
    ∃ a o, a ∈ s.reachable ∧ s.get? a = some o ∧ f a = y ∧ o.mapIds f = q := by
  obtain ⟨a, ha, rfl⟩ := h.mem_reachable_iff.mp hy
  obtain ⟨o, ho⟩ := Scene.get?_of_mem_reachable ha
  exact ⟨a, o, ha, ho, rfl, Option.some.inj ((h.object ha ho).symm.trans hq)⟩

/-- What is found at the id of a renamed child is the renamed child. -/
theorem exists_child {a c : ObjectId} {o q : Object K} (ha : a ∈ s.reachable)
    (ho : s.get? a = some o) (hc : c ∈ o.content.children) (hq : s'.get? (f c) = some q) :
    c ∈ s.reachable ∧ ∃ p, s.get? c = some p ∧ p.mapIds f = q := by
  have hreach := h.closed ha (refers_of_get? ho (Object.mem_targets_of_mem_children hc))
  obtain ⟨p, hp⟩ := Scene.get?_of_mem_reachable hreach
  exact ⟨hreach, p, hp, Option.some.inj ((h.object hreach hp).symm.trans hq)⟩

/-- A renamed scene without dead containers has none. -/
theorem noDead (hdead : Reduction.NoDead s) : Reduction.NoDead s' := by
  intro y hy q shapes hq hshapes c hc r hr
  obtain ⟨a, o, ha, ho, rfl, rfl⟩ := h.exists_source hy hq
  rw [Object.mapIds, Content.shapes?_mapIds] at hshapes
  obtain ⟨cs, hcs, rfl⟩ := Option.map_eq_some_iff.mp hshapes
  obtain ⟨d, hd, rfl⟩ := List.mem_map.mp hc
  have hchild : d ∈ o.content.children := Reduction.children_of_shapes? hcs ▸ hd
  obtain ⟨-, p, hp, rfl⟩ := h.exists_child ha ho hchild hr
  rw [Reduction.isDead_mapIds]
  exact hdead a ha o cs ho hcs d hd p hp

/-- Where no push can be made, none can be made under other ids. -/
theorem pushIdle (hidle : ∀ x ∈ s.reachable, Reduction.PushIdle s (Reduction.isSingle s) x) :
    ∀ y ∈ s'.reachable, Reduction.PushIdle s' (Reduction.isSingle s') y := by
  intro y hy hroot hsingle q m shapes hq hmatrix
  obtain ⟨a, o, ha, ho, rfl, rfl⟩ := h.exists_source hy hq
  rw [h.root] at hroot
  rw [h.isSingle_eq ha] at hsingle
  rw [Reduction.matrixContainer?_mapIds] at hmatrix
  obtain ⟨⟨m', cs⟩, hcontainer, heq⟩ := Option.map_eq_some_iff.mp hmatrix
  obtain ⟨rfl, rfl⟩ := Prod.mk.inj heq
  obtain ⟨c, hc, hrefused⟩ :=
    hidle a ha (fun heq => hroot (congrArg f heq)) hsingle o m' cs ho hcontainer
  have hchild : c ∈ o.content.children := by
    rw [(Reduction.matrixContainer?_eq_some hcontainer).2]
    exact hc
  refine ⟨f c, List.mem_map_of_mem hc, ?_⟩
  rintro ⟨hcsingle, r, hr, haccepts⟩
  obtain ⟨hreach, p, hp, rfl⟩ := h.exists_child ha ho hchild hr
  rw [h.isSingle_eq hreach] at hcsingle
  rw [Reduction.accepts_mapIds] at haccepts
  exact hrefused ⟨hcsingle, p, hp, haccepts⟩

/-- Where nothing can be spliced, nothing can be spliced under other ids. -/
theorem spliceIdle (hidle : ∀ x ∈ s.reachable, Reduction.SpliceIdle s s.readByExpressions x) :
    ∀ y ∈ s'.reachable, Reduction.SpliceIdle s' s'.readByExpressions y := by
  intro y hy q hq c hc
  obtain ⟨a, o, ha, ho, rfl, rfl⟩ := h.exists_source hy hq
  rw [Object.mapIds, Content.children_mapIds] at hc
  obtain ⟨d, hd, rfl⟩ := List.mem_map.mp hc
  have hreach := h.closed ha (refers_of_get? ho (Object.mem_targets_of_mem_children hd))
  obtain ⟨p, hp⟩ := Scene.get?_of_mem_reachable hreach
  have hkept := hidle a ha o ho d hd
  have hshapes : (o.mapIds f).content.shapes?.isSome = o.content.shapes?.isSome := by
    rw [Object.mapIds, Content.shapes?_mapIds, Option.isSome_map]
  rw [hshapes]
  unfold Reduction.replacement? at hkept ⊢
  simp only [List.contains_iff_mem, h.mem_readByExpressions_iff hreach, h.object hreach hp, hp,
    Option.bind_eq_bind, Option.bind_some, Reduction.spliceable?_mapIds] at hkept ⊢
  split
  · rfl
  · rename_i hunread
    rw [if_neg hunread] at hkept
    rw [hkept]
    rfl

variable [Scalar K]

/-- Where nothing folds, nothing folds under other ids. -/
theorem foldIdle (hidle : ∀ x ∈ s.reachable, Reduction.FoldIdle s s.readByExpressions x) :
    ∀ y ∈ s'.reachable, Reduction.FoldIdle s' s'.readByExpressions y := by
  intro y hy hunread q hq hstill
  obtain ⟨a, o, ha, ho, rfl, rfl⟩ := h.exists_source hy hq
  rw [h.mem_readByExpressions_iff ha] at hunread
  rw [Object.mapIds, Attachments.animatesAny_mapIds] at hstill
  exact Reduction.foldContent?_mapIds f (hidle a ha hunread o ho hstill)

/-- **A settled scene is settled under other ids.** -/
theorem settled (hs : Reduction.Settled s) : Reduction.Settled s' :=
  ⟨h.noDead hs.noDead, h.foldIdle hs.folded, h.pushIdle hs.pushed, h.spliceIdle hs.spliced⟩

end Scene.Renamed
end Diorama
