/-
  Copying a copy.

  The copy of a scene has one object for each class, so nothing in it can be merged any more, as
  long as defaults are kept: two copies with equal keys would be copies of objects with equal keys,
  which are in one class (`Copied.distinct`).  And the walk over the copy takes the same steps as
  the walk that made it, each object in the place of its class (`Copied.copyWalk_copy`).  So it
  finishes the objects in the order in which they stand, and the copy of the copy is the copy
  itself, with the same ids.
-/
import Mathlib
import Diorama.Proofs.OptimizerRuns

namespace Diorama

variable {K : Type} [Scalar K]

/-! ## Keys of copies -/

/-- The object as it is copied: without default values unless they are kept. -/
def Object.elided (settings : OptimizerSettings) (o : Object K) : Object K :=
  if settings.keepDefaults then o else { o with content := o.content.withoutDefaults }

theorem Content.withoutDefaults_mapIds (f : ObjectId → ObjectId) (c : Content K) :
    (c.mapIds f).withoutDefaults = c.withoutDefaults.mapIds f := by
  cases c with
  | geometry outline => cases outline <;> rfl
  | _ => rfl

omit [Scalar K] in
theorem Object.isMergeable_congr {o o' : Object K} (f : ObjectId → ObjectId)
    (hkind : o'.kind = o.kind)
    (hanimators : o'.attached.animators = o.attached.animators.map (·.mapIds f)) :
    o'.isMergeable = o.isMergeable := by
  have hplain : o'.hasPlainAnimators = o.hasPlainAnimators := by
    unfold Object.hasPlainAnimators
    rw [hanimators]
    rcases o.attached.animators with _ | ⟨a, _ | ⟨b, rest⟩⟩
    · rfl
    · rfl
    · rfl
  unfold Object.isMergeable
  rw [hkind, hplain]

namespace Merge

section

variable (c : Classes) (settings : OptimizerSettings) (f : ObjectId → ObjectId) (r : Nat)
  (o : Object K)

theorem content_copyObject :
    (copyObject c settings f r o).content = (o.elided settings).content.mapIds f := by
  unfold copyObject Object.elided
  cases settings.keepDefaults with
  | true => rfl
  | false => exact Content.withoutDefaults_mapIds f o.content

theorem attached_elided : (o.elided settings).attached = o.attached := by
  unfold Object.elided
  split <;> rfl

/-- The key of a copy is that of the object, with references led to copies. -/
theorem mergeKey?_copyObject (g : ObjectId → ObjectId) :
    (copyObject c settings f r o).mergeKey? g = (o.elided settings).mergeKey? (g ∘ f) := by
  have hcontent := content_copyObject c settings f r o
  have hanimators : (copyObject c settings f r o).attached.animators =
      (o.elided settings).attached.animators.map (·.mapIds f) := by
    rw [copyObject_animators, attached_elided]
  have hmergeable :
      (copyObject c settings f r o).isMergeable = (o.elided settings).isMergeable := by
    refine Object.isMergeable_congr f ?_ hanimators
    rw [Object.kind, hcontent, Content.kind_mapIds]
    rfl
  unfold Object.mergeKey?
  rw [hmergeable]
  split
  · simp [Object.mapIds, Attachments.mapIds, hcontent, hanimators]
  · rfl

/-- A copy may be merged exactly if the object may. -/
theorem isEligible_copyObject :
    (copyObject c settings f r o).isEligible settings = o.isEligible settings := by
  unfold Object.isEligible copyObject
  cases settings.ignoreComments with
  | true =>
    by_cases h : 1 < c.sizeOf r <;>
      simp [h, Object.mapIds, Attachments.mapIds, Attachments.withoutText]
  | false => simp [Object.mapIds, Attachments.mapIds, Attachments.hasText]

/-- The copy of an object of a known kind is of a known kind. -/
theorem known_copyObject (hknown : ∀ name, o.content ≠ .external name) (name : String) :
    (copyObject c settings f r o).content ≠ .external name := by
  intro hname
  have hkind := congrArg Content.kind hname
  rcases copyObject_content c settings f r o with h | h
  · rw [h, Content.kind_mapIds] at hkind
    cases hc : o.content with
    | external other => exact hknown other hc
    | _ => simp [hc, Content.kind] at hkind
  · rw [h, Content.kind_withoutDefaults, Content.kind_mapIds] at hkind
    cases hc : o.content with
    | external other => exact hknown other hc
    | _ => simp [hc, Content.kind] at hkind

variable {c settings f r o}

/-- What refers only to objects that stay is its own copy, where defaults and texts are kept. -/
theorem copyObject_of_fixed (hdefaults : settings.keepDefaults = true) (halone : ¬1 < c.sizeOf r)
    (hfixed : ∀ t ∈ o.targets, f t = t) : copyObject c settings f r o = o := by
  have hsame := Object.mapIds_of_fixed hfixed
  simp only [copyObject, hdefaults, halone, if_true, hsame, decide_false, Bool.and_false,
    Bool.false_eq_true, if_false]

end

/-! ## Steps of the walk -/

section

omit [Scalar K]

variable {s : Scene K} {ix : Index} {c : Classes} {rest : List CopyTask}
  {entered finished : List Nat}

theorem copyWalk_seen {id : ObjectId} {p : Nat} (hpos : ix.position? id = some p)
    (hseen : c.representative p ∈ entered) :
    copyWalk s ix c (.visit id :: rest) entered finished =
      copyWalk s ix c rest entered finished := by
  rw [copyWalk]
  simp only [hpos, hseen, dite_true]

theorem copyWalk_enter {id rid : ObjectId} {p : Nat} {o : Object K}
    (hpos : ix.position? id = some p) (hnew : c.representative p ∉ entered)
    (hrid : ix.ids[c.representative p]? = some rid) (hget : s.get? rid = some o)
    (hknown : ∀ name, o.content ≠ .external name) :
    copyWalk s ix c (.visit id :: rest) entered finished =
      copyWalk s ix c (o.copyOrder.map .visit ++ .finish (c.representative p) :: rest)
        (entered ++ [c.representative p]) finished := by
  rw [copyWalk]
  simp only [hpos, hnew, dite_false]
  split
  · rename_i hnone
    rw [hrid] at hnone
    cases hnone
  · rename_i rid' hrid'
    obtain rfl := Option.some.inj (hrid.symm.trans hrid')
    simp only [hget]

end

/-- The same step at other ids and positions. -/
def CopyTask.rename (f : ObjectId → ObjectId) (position : Nat → Nat) : CopyTask → CopyTask
  | .visit id => .visit (f id)
  | .finish r => .finish (position r)

/-- The position of the copy of a class in an index of the copy. -/
def copyPosition (ix : Index) (order : List Nat) (r : Nat) : Nat :=
  ix.ids.idxOf (.ofIndex (order.idxOf r))

variable {s out : Scene K} {ix again : Index} {c c' : Classes} {settings : OptimizerSettings}
  {order : List Nat}

namespace Copied

variable (h : Copied s ix settings c order out)

include h

/-- The representative that a copy is the copy of is in the class of the object. -/
theorem classId_sourceId {id : ObjectId} (hid : id ∈ ix.ids) :
    classId ix c.relation (sourceId ix order (copyId ix c order id)) =
      classId ix c.relation id := by
  obtain ⟨p, hpos, hmem⟩ := h.covered hid
  obtain ⟨rid, hrid, hsource⟩ := h.sourceId_copyId hpos hmem
  rw [hsource]
  have hposr := Index.position?_of_getElem? h.sound.nodup hrid
  have hsame : {q | c.relation (c.representative p) q} = {q | c.relation p q} := by
    ext q
    have hrelated := h.represented p
    exact ⟨fun hq => c.relation.trans hrelated hq,
      fun hq => c.relation.trans (c.relation.symm hrelated) hq⟩
  have hclass := classId_of_position? c.relation hposr
  rw [hsame, classId_of_position? c.relation hpos] at hclass
  exact (Option.some.inj hclass).symm

variable (horder : copyOrder s ix c = .ok order)

include horder

/-- **No two copies have the same key**, as long as defaults are kept. -/
theorem distinct (hdefaults : settings.keepDefaults = true) : out.Distinct settings := by
  intro y hy z hz u v k hu hv hueligible hveligible hku hkv
  obtain ⟨r, a, o, hr, ha, hgeta, -, -, hcopya⟩ :=
    h.exists_source horder ((h.mem_reachable_iff horder).mp hy)
  obtain ⟨q, b, o', hq, hb, hgetb, -, -, hcopyb⟩ :=
    h.exists_source horder ((h.mem_reachable_iff horder).mp hz)
  obtain rfl := Option.some.inj (hu.symm.trans hcopya)
  obtain rfl := Option.some.inj (hv.symm.trans hcopyb)
  rw [isEligible_copyObject] at hueligible hveligible
  -- the keys name copies, and copies can be traced back to classes
  have hkey : ∀ {x : ObjectId} {w : Object K} {p : Nat}, ix.ids[p]? = some x → s.get? x = some w →
      w.isEligible settings = true →
      (copyObject c settings (copyId ix c order) p w).mergeKey? id = some k →
      keyUnder s ix settings c.relation p =
        some (k.mapIds (classId ix c.relation ∘ sourceId ix order)) := by
    intro x w p hx hw heligible hk
    rw [mergeKey?_copyObject, Object.elided, if_pos hdefaults, Function.id_comp] at hk
    have hclasses : w.mergeKey? (classId ix c.relation) =
        w.mergeKey? ((classId ix c.relation ∘ sourceId ix order) ∘ copyId ix c order) := by
      unfold Object.mergeKey?
      rw [Object.mapIds_congr fun t ht => (h.classId_sourceId (h.sound.ranked.closed
        (List.mem_of_getElem? hx) (Scene.refers_of_get? hw ht))).symm]
      rfl
    rw [keyUnder, objectAt?, hx, Option.bind_some, hw, Option.bind_some, if_pos heligible, hclasses,
      Object.mergeKey?_comp, hk]
    rfl
  have hrelated : c.relation r q :=
    h.least.1 r q _ (hkey ha hgeta hueligible hku) (hkey hb hgetb hveligible hkv)
  have hsame : c.representative r = c.representative q := hrelated
  rw [h.representative_of_mem horder (List.mem_of_getElem? hr),
    h.representative_of_mem horder (List.mem_of_getElem? hq)] at hsame
  obtain ⟨hry, hrget⟩ := List.getElem?_eq_some_iff.mp hr
  obtain ⟨hqz, hqget⟩ := List.getElem?_eq_some_iff.mp hq
  have hindex : y.index = z.index := by
    rw [← h.ordered.nodup.idxOf_getElem y.index hry, ← h.ordered.nodup.idxOf_getElem z.index hqz,
      hrget, hqget, hsame]
  exact ObjectId.index_injective hindex

/-- A copy is indexed. -/
theorem build_copy : ∃ again, Index.build out = .ok again := by
  refine Index.build_of_ranked (h.ranked_copy horder) ?_ fun y x hy hx => ?_
  · show out.root.index < out.size
    rw [h.root]
    exact h.index_copyId_lt h.sound.root_mem
  · obtain ⟨r, id, o, -, hid, hget, -, -, hcopy⟩ := h.exists_source horder hy
    obtain rfl := Option.some.inj (hx.symm.trans hcopy)
    obtain ⟨w, hw, hframes⟩ := h.sound.object id (List.mem_of_getElem? hid)
    obtain rfl := Option.some.inj (hget.symm.trans hw)
    exact checkFrames_copyObject c settings (copyId ix c order) r o hframes

/-! ## The walk over a copy -/

variable (hagain : Index.Sound out again)

include hagain

omit horder in
theorem position?_copyId {id : ObjectId} {p : Nat} (hpos : ix.position? id = some p) :
    again.position? (copyId ix c order id) =
      some (copyPosition again order (c.representative p)) := by
  have hid := List.mem_of_getElem? (Index.position?_eq_some hpos)
  have hmem := hagain.mem_ids_iff.mpr (h.copyId_mem_reachable hid)
  have hget := Index.position?_of_getElem? hagain.nodup (Index.Sound.getElem?_idxOf hmem)
  rwa [copyId_of_position? hpos] at hget ⊢

/-- Classes have different copies. -/
theorem copyPosition_inj {r q : Nat} (hr : r ∈ order) (hq : q ∈ order)
    (heq : copyPosition again order r = copyPosition again order q) : r = q := by
  have hsource : ∀ p ∈ order, ∃ id, ix.position? id = some p := by
    intro p hp
    obtain ⟨id, o, hid, -⟩ := h.ordered.object p hp
    exact ⟨id, Index.position?_of_getElem? h.sound.nodup hid⟩
  obtain ⟨a, ha⟩ := hsource r hr
  obtain ⟨b, hb⟩ := hsource q hq
  have hposa := Index.position?_eq_some (h.position?_copyId hagain ha)
  have hposb := Index.position?_eq_some (h.position?_copyId hagain hb)
  rw [h.representative_of_mem horder hr, heq] at hposa
  rw [h.representative_of_mem horder hq, hposa] at hposb
  have hsame := (h.copyId_eq_iff ha hb).mp (Option.some.inj hposb)
  rwa [h.representative_of_mem horder hr, h.representative_of_mem horder hq] at hsame

/-- **The walk over the copy takes the steps of the walk that made it.** -/
theorem copyWalk_copy (hself : ∀ p, c'.representative p = p) {tasks : List CopyTask}
    {entered finished result : List Nat}
    (hwalk : copyWalk s ix c tasks entered finished = .ok result)
    (htasks : ∀ id, .visit id ∈ tasks → id ∈ ix.ids) (hentered : ∀ r ∈ entered, r ∈ order) :
    copyWalk out again c' (tasks.map (.rename (copyId ix c order) (copyPosition again order)))
      (entered.map (copyPosition again order)) (finished.map (copyPosition again order)) =
      .ok (result.map (copyPosition again order)) := by
  have hcovered : ∀ {id p},
      id ∈ ix.ids → ix.position? id = some p → c.representative p ∈ order := by
    intro id p hid hpos
    obtain ⟨q, hq, hmem⟩ := h.covered hid
    rwa [Option.some.inj (hpos.symm.trans hq)]
  -- the walk over the copy runs in step with the walk over the scene, task by task
  fun_induction copyWalk s ix c tasks entered finished with
  | case1 entered finished =>
    obtain rfl := Except.ok.inj hwalk
    rw [List.map_nil, copyWalk]
  | case2 entered finished r rest ih =>
    have hrest := ih hwalk (fun id hid => htasks id (List.mem_cons_of_mem _ hid)) hentered
    rw [List.map_append] at hrest
    rw [List.map_cons, CopyTask.rename, copyWalk]
    exact hrest
  | case3 => cases hwalk
  | case4 entered finished id rest p hpos hseen ih =>
    have hposition := h.position?_copyId hagain hpos
    rw [List.map_cons, CopyTask.rename, copyWalk_seen hposition]
    · exact ih hwalk (fun t ht => htasks t (List.mem_cons_of_mem _ ht)) hentered
    · rw [hself]
      exact List.mem_map_of_mem hseen
  | case5 => cases hwalk
  | case6 => cases hwalk
  | case7 => cases hwalk
  | case8 entered finished id rest p hpos hnew rid hrid o hget hknown ih =>
    have hposition := h.position?_copyId hagain hpos
    have hmem := hcovered (htasks id List.mem_cons_self) hpos
    have ho : objectAt? s ix (c.representative p) = some o := by simp [objectAt?, hrid, hget]
    -- a representative that is new is new in the copy, as positions are carried over one to one
    have hnew' : c'.representative (copyPosition again order (c.representative p)) ∉
        entered.map (copyPosition again order) := by
      rw [hself]
      intro hold
      obtain ⟨q, hq, heq⟩ := List.mem_map.mp hold
      exact hnew (h.copyPosition_inj horder hagain (hentered q hq) hmem heq ▸ hq)
    have hcopy : again.ids[c'.representative (copyPosition again order (c.representative p))]? =
        some (copyId ix c order id) := by
      rw [hself]
      exact Index.position?_eq_some hposition
    rw [List.map_cons, CopyTask.rename, copyWalk_enter hposition hnew' hcopy
      (h.get?_copyId hpos hmem ho) (known_copyObject _ _ _ _ _ hknown), copyOrder_copyObject, hself]
    have hnext := ih hwalk (visits_indexed_enter h.sound hrid hget htasks) ?_
    · simpa [CopyTask.rename, Function.comp_def] using hnext
    · intro r hr
      rcases List.mem_append.mp hr with hr | hr
      · exact hentered r hr
      · rw [List.mem_singleton.mp hr]
        exact hmem

theorem copyOrder_copy (hself : ∀ p, c'.representative p = p) :
    copyOrder out again c' = .ok (order.map (copyPosition again order)) := by
  have hwalk :=
    h.copyWalk_copy horder hagain hself horder (visits_indexed_start h.sound) (by simp)
  rw [copyOrder, h.root]
  exact hwalk

/-- Every object of the copy keeps its id. -/
theorem copyId_copy (hself : ∀ p, c'.representative p = p) {y : ObjectId}
    (hy : y.index < out.size) : copyId again c' (order.map (copyPosition again order)) y = y := by
  obtain ⟨r, id, o, hr, hid, -, -, hcopyId, -⟩ := h.exists_source horder hy
  have hposition := h.position?_copyId hagain (Index.position?_of_getElem? h.sound.nodup hid)
  rw [hcopyId, h.representative_of_mem horder (List.mem_of_getElem? hr)] at hposition
  have hnodup : (order.map (copyPosition again order)).Nodup :=
    h.ordered.nodup.map_on fun r hr q hq => h.copyPosition_inj horder hagain hr hq
  obtain ⟨hlt, hget⟩ := List.getElem?_eq_some_iff.mp hr
  have hplace : (order.map (copyPosition again order)).idxOf (copyPosition again order r) =
      y.index := by
    have hidx := hnodup.idxOf_getElem y.index (by simpa using hlt)
    rwa [List.getElem_map, hget] at hidx
  rw [copyId_of_position? hposition, hself, hplace, ObjectId.ofIndex_index]

/-- Every object of the copy is its own copy, where defaults are kept. -/
theorem copyObject_copy (hdefaults : settings.keepDefaults = true)
    (hself : ∀ p, c'.representative p = p) (halone : ∀ p, p < again.size → ¬1 < c'.sizeOf p)
    {r : Nat}
    (hr : r ∈ order) :
    (objectAt? out again (copyPosition again order r)).map
        (copyObject c' settings (copyId again c' (order.map (copyPosition again order)))
          (copyPosition again order r)) =
      (objectAt? s ix r).map (copyObject c settings (copyId ix c order) r) := by
  obtain ⟨id, o, hid, hget⟩ := h.ordered.object r hr
  have hpos := Index.position?_of_getElem? h.sound.nodup hid
  have hrep := h.representative_of_mem horder hr
  have hposition := h.position?_copyId hagain hpos
  rw [hrep] at hposition
  have ho : objectAt? s ix r = some o := by simp [objectAt?, hid, hget]
  have hcopy := h.get?_copyId hpos (hrep.symm ▸ hr) (hrep.symm ▸ ho)
  rw [hrep] at hcopy
  have hat : objectAt? out again (copyPosition again order r) =
      some (copyObject c settings (copyId ix c order) r o) := by
    rw [objectAt?, Index.position?_eq_some hposition, Option.bind_some, hcopy]
  rw [hat, ho, Option.map_some, Option.map_some]
  refine congrArg some (copyObject_of_fixed hdefaults (halone _ (lt_size_of_objectAt? hat)) ?_)
  intro t ht
  have hranked := h.ranked_copy horder
  exact h.copyId_copy horder hagain hself
    (hranked.closed (Scene.index_lt_size hcopy) (Scene.refers_of_get? hcopy ht))

end Copied

/-- **The copy of a copy is the copy itself**, where defaults are kept. -/
theorem copy_assembled (hix : Index.build s = .ok ix)
    (horder : copyOrder s ix (Classes.ofIndex s ix settings) = .ok order)
    (hout : out = assembled s ix (Classes.ofIndex s ix settings) settings order)
    (hdefaults : settings.keepDefaults = true) (hagain : Index.build out = .ok again) :
    copy out again (Classes.ofIndex out again settings) settings = .ok out := by
  have h := copied_assembled hix horder
  rw [← hout] at h
  have hsound := Index.sound_of_build hagain
  have hdistinct := (isCongruence_bot_iff hsound).mpr (h.distinct horder hdefaults)
  have hself : ∀ p, (Classes.ofIndex out again settings).representative p = p :=
    Classes.representative_of_distinct hsound hdistinct
  have halone : ∀ p, p < again.size → ¬1 < (Classes.ofIndex out again settings).sizeOf p := by
    intro p hp hseveral
    rw [← hself p, one_lt_sizeOf_iff hp] at hseveral
    obtain ⟨q, -, hne, hrep⟩ := hseveral
    rw [hself, hself] at hrep
    exact hne hrep
  refine copy_eq_ok_iff.mpr ⟨_, h.copyOrder_copy horder hsound hself, ?_, h.validate_copy horder⟩
  have hroot : copyId again (Classes.ofIndex out again settings)
      (order.map (copyPosition again order)) out.root = out.root := by
    refine h.copyId_copy horder hsound hself ?_
    rw [h.root]
    exact h.index_copyId_lt h.sound.root_mem
  have hobjects : (order.map (copyPosition again order)).filterMap (fun r =>
      (objectAt? out again r).map (copyObject (Classes.ofIndex out again settings) settings
        (copyId again (Classes.ofIndex out again settings)
          (order.map (copyPosition again order))) r)) =
      order.filterMap fun r => (objectAt? s ix r).map
        (copyObject (Classes.ofIndex s ix settings) settings
          (copyId ix (Classes.ofIndex s ix settings) order) r) := by
    rw [List.filterMap_map]
    exact List.filterMap_congr fun r hr => h.copyObject_copy horder hsound hdefaults hself halone hr
  rw [assembled, hobjects, hroot, h.root, hout]
  rfl

end Merge

/-- **Copying is a projection.**  Where defaults and the tree are kept, and whether comments are
ignored or not, a run on what a run has made gives the same scene: the same objects at the same ids,
the same root and the same frozen objects.  It merges nothing. -/
theorem Scene.optimize_projection {s : Scene K} {settings : OptimizerSettings} {once : Optimized K}
    (hdefaults : settings.keepDefaults = true) (htree : settings.keepTree = true)
    (h : s.optimize settings = .ok once) :
    ∃ twice, once.scene.optimize settings = .ok twice ∧ twice.scene = once.scene ∧
      twice.report.merged = [] ∧
      twice.report.inputObjects = once.report.canonicalObjects ∧
      twice.report.canonicalObjects = once.report.canonicalObjects := by
  obtain ⟨ix, copied, hrun⟩ := optimize_eq_ok_iff.mp h
  obtain ⟨hscene, -⟩ := hrun.kept htree
  obtain ⟨order, horder, hcopied, -⟩ := Merge.copy_eq_ok_iff.mp hrun.copy
  have hquotient := Merge.copied_assembled hrun.index horder
  rw [← hcopied] at hquotient
  obtain ⟨again, hagain⟩ := hquotient.build_copy horder
  have hcopy := Merge.copy_assembled hrun.index horder hcopied hdefaults hagain
  have hsound := Index.sound_of_build hagain
  have hdistinct := (Merge.isCongruence_bot_iff hsound).mpr (hquotient.distinct horder hdefaults)
  have hmerged : (Classes.ofIndex copied again settings).merged = [] :=
    (Classes.merged_eq_nil_iff _).mpr ((Classes.merges_eq_nil_iff hsound).mpr hdistinct)
  have hself := Classes.representative_of_distinct hsound hdistinct
  -- both orders list all classes, and they are equally long
  have hcount : (Classes.ofIndex copied again settings).count = once.report.canonicalObjects := by
    have hagainOrder := Merge.perm_canonicals hagain (hquotient.copyOrder_copy horder hsound hself)
    have honceOrder := Merge.perm_canonicals hrun.index horder
    rw [hrun.canonicalObjects, Classes.count, ← hagainOrder.length_eq, List.length_map,
      honceOrder.length_eq]
    rfl
  rw [hscene]
  refine ⟨_, optimize_of_copy hagain hcopy (fun _ => ⟨rfl, rfl⟩) (by simp [htree]), rfl, hmerged,
    ?_, hcount⟩
  exact (Classes.count_of_distinct hsound hdistinct).symm.trans hcount

/-- The settings under which copying is a projection, with comments ignored. -/
def plainCopying : OptimizerSettings :=
  { ignoreComments := true, keepDefaults := true, keepTree := true }

/-- What a run makes of the duet where only copies are made: one brush and one animation. -/
def duetOnce : Optimized (BitVec 32) where
  scene := Merge.duetCopy
  report := {
    inputObjects := 5
    canonicalObjects := 3
    merged := [(.colorBrush, 1), (.expressionAnimation, 1)]
    reduction := {}
    outputObjects := 3 }

theorem duet_projection :
    Merge.duet.optimize plainCopying = .ok duetOnce ∧
    ∃ twice, duetOnce.scene.optimize plainCopying = .ok twice ∧ twice.scene = duetOnce.scene ∧
      twice.report.merged = [] ∧
      twice.report.inputObjects = duetOnce.report.canonicalObjects ∧
      twice.report.canonicalObjects = duetOnce.report.canonicalObjects := by
  have honce : Merge.duet.optimize plainCopying = .ok duetOnce := by cbv
  exact ⟨honce, Scene.optimize_projection rfl rfl honce⟩

end Diorama
