/-
  Scenes with the same classes have the same copy.

  The walk over classes asks where an object is, which position represents it, and what the
  representative refers to.  If another scene answers alike, with objects and representatives
  renamed and no two representatives under one name, then the walk takes the same steps there
  (`Parallel.copyWalk_agree`).  Ids in a copy are counted from the order of that walk, so both
  scenes have the same copy as it stands (`Parallel.copy_agree`).

  The other scene need not have as many objects: what counts is one object for each class.
-/
import Mathlib
import Diorama.Proofs.Projection

namespace Diorama

variable {K : Type} [Scalar K]

/-! ## Objects under other ids -/

namespace Object

variable (f g : ObjectId → ObjectId) (o : Object K)

omit [Scalar K] in
theorem mapIds_mapIds : (o.mapIds f).mapIds g = o.mapIds (g ∘ f) := by
  simp [mapIds, Attachments.mapIds]

/-- An object under other ids is the copy that keeps everything else. -/
theorem mapIds_eq_copyObject :
    o.mapIds f = Merge.copyObject ⟨[], [], 0⟩ { keepDefaults := true } f 0 o := rfl

/-- A renamed object has the key that the object has under the composition. -/
theorem mergeKey?_mapIds : (o.mapIds f).mergeKey? g = o.mergeKey? (g ∘ f) := by
  rw [mapIds_eq_copyObject, Merge.mergeKey?_copyObject]
  rfl

/-- Copies are made in the order of the renamed references. -/
theorem copyOrder_mapIds : (o.mapIds f).copyOrder = o.copyOrder.map f := by
  rw [mapIds_eq_copyObject, Merge.copyOrder_copyObject]

omit [Scalar K] in
/-- Whether an object may be merged is decided without its ids. -/
theorem isEligible_mapIds (settings : OptimizerSettings) :
    (o.mapIds f).isEligible settings = o.isEligible settings := by
  simp [isEligible, mapIds, Attachments.mapIds, Attachments.hasText]

omit [Scalar K] in
theorem kind_mapIds : (o.mapIds f).kind = o.kind := Content.kind_mapIds f o.content

omit [Scalar K] in
theorem isMergeable_mapIds : (o.mapIds f).isMergeable = o.isMergeable :=
  isMergeable_congr f (o.kind_mapIds f) rfl

variable {f g o}

/-- A key depends on a renaming only at the ids that the object refers to. -/
theorem mergeKey?_congr (h : ∀ t ∈ o.targets, f t = g t) : o.mergeKey? f = o.mergeKey? g := by
  rw [mergeKey?, mergeKey?, mapIds_congr h]

end Object

omit [Scalar K] in
/-- Taking off text that is not there changes nothing. -/
theorem Attachments.withoutText_of_not_hasText {a : Attachments K} (h : a.hasText = false) :
    a.withoutText = a := by
  obtain ⟨comment, short, long, properties, animators⟩ := a
  simp only [hasText, Bool.or_eq_false_iff, Option.isSome_eq_false_iff,
    Option.isNone_iff_eq_none] at h
  obtain ⟨⟨rfl, rfl⟩, rfl⟩ := h
  rfl

/-- Places are kept by renaming if nothing else gets the name. -/
theorem idxOf_map {α β : Type} [DecidableEq α] [DecidableEq β] {f : α → β} {l : List α} {x : α}
    (h : ∀ y ∈ l, f y = f x → y = x) : (l.map f).idxOf (f x) = l.idxOf x := by
  induction l with
  | nil => rfl
  | cons y l ih =>
    obtain ⟨hy, hl⟩ := List.forall_mem_cons.mp h
    by_cases hsame : y = x
    · rw [hsame, List.map_cons, List.idxOf_cons_self, List.idxOf_cons_self]
    · rw [List.map_cons, List.idxOf_cons_ne _ hsame, List.idxOf_cons_ne _ fun heq => hsame (hy heq),
        ih hl]

namespace Merge

variable {f : ObjectId → ObjectId} {position : Nat → Nat} {s s' : Scene K} {ix ix' : Index}
  {c c' : Classes} {settings : OptimizerSettings}

omit [Scalar K] in
/-- An object refers to indexed objects only. -/
theorem mem_ids_of_mem_targets (hix : ix.Sound s) {p : Nat} {o : Object K}
    (ho : objectAt? s ix p = some o) {t : ObjectId} (ht : t ∈ o.targets) : t ∈ ix.ids := by
  obtain ⟨id, hid, hget⟩ := Option.bind_eq_some_iff.mp ho
  exact hix.ranked.closed (List.mem_of_getElem? hid) (Scene.refers_of_get? hget ht)

omit [Scalar K] in
/-- The walk over classes is refused where a class has no object of a known kind. -/
theorem copyWalk_refused {id : ObjectId} {p : Nat} {rest : List CopyTask}
    {entered finished : List Nat} (hpos : ix.position? id = some p)
    (hnew : c.representative p ∉ entered)
    (hunknown : ∀ o, objectAt? s ix (c.representative p) = some o →
      ∃ name, o.content = .external name) :
    ∃ e, copyWalk s ix c (.visit id :: rest) entered finished = .error e := by
  rw [copyWalk]
  simp only [hpos, hnew, dite_false]
  split
  · exact ⟨_, rfl⟩
  · rename_i rid hrid
    cases hget : s.get? rid with
    | none => exact ⟨_, rfl⟩
    | some o =>
      obtain ⟨name, hname⟩ := hunknown o (by simp [objectAt?, hrid, hget])
      simp only [hname]
      exact ⟨_, rfl⟩

/-! ## Parallel classes -/

/-- A position that represents an indexed object. -/
def Represents (ix : Index) (c : Classes) (r : Nat) : Prop :=
  ∃ a p, ix.position? a = some p ∧ c.representative p = r

/-- The classes of a scene are found in another one.  Objects go to objects of the class to which
their class goes, and representatives to representatives, with the same references under the new
ids. -/
structure Parallel (f : ObjectId → ObjectId) (position : Nat → Nat) (settings : OptimizerSettings)
    (s : Scene K) (ix : Index) (c : Classes) (s' : Scene K) (ix' : Index) (c' : Classes) :
    Prop where
  sound : ix.Sound s
  root : s'.root = f s.root
  class_eq {a : ObjectId} {p : Nat} : ix.position? a = some p →
    ∃ p', ix'.position? (f a) = some p' ∧ c'.representative p' = position (c.representative p)
  object {r : Nat} : Represents ix c r →
    objectAt? s' ix' (position r) = (objectAt? s ix r).map (·.mapIds f)
  inj {r q : Nat} : Represents ix c r → Represents ix c q → position r = position q → r = q
  /-- Texts are dropped in the one copy exactly if they are dropped in the other. -/
  text {r : Nat} {o : Object K} : settings.ignoreComments = true → Represents ix c r →
    objectAt? s ix r = some o → o.attached.hasText = true →
      (1 < c'.sizeOf (position r) ↔ 1 < c.sizeOf r)

namespace Parallel

variable (h : Parallel f position settings s ix c s' ix' c')

include h

omit [Scalar K] in
/-- The walk over the other classes is refused where the walk is. -/
theorem copyWalk_refused {a : ObjectId} {p : Nat} {rest : List CopyTask}
    {entered finished : List Nat} (e : SceneError) (hpos : ix.position? a = some p)
    (hnew : ∀ r ∈ entered, position (c.representative p) ≠ position r)
    (hunknown : ∀ o, objectAt? s ix (c.representative p) = some o →
      ∃ name, o.content = .external name) :
    Agree (fun order order' : List Nat => order' = order.map position) (.error e)
      (copyWalk s' ix' c' (.visit (f a) :: rest) (entered.map position) finished) := by
  obtain ⟨p', hpos', hrep⟩ := h.class_eq hpos
  have hunknown' : ∀ o, objectAt? s' ix' (c'.representative p') = some o →
      ∃ name, o.content = .external name := by
    intro o' ho'
    rw [hrep, h.object ⟨a, p, hpos, rfl⟩] at ho'
    obtain ⟨o, ho, rfl⟩ := Option.map_eq_some_iff.mp ho'
    obtain ⟨name, hname⟩ := hunknown o ho
    exact ⟨name, by simp only [Object.mapIds, hname, Content.mapIds]⟩
  have hnew' : c'.representative p' ∉ entered.map position := by
    rw [hrep]
    intro hmem
    obtain ⟨r, hr, heq⟩ := List.mem_map.mp hmem
    exact hnew r hr heq.symm
  obtain ⟨e', he'⟩ := Merge.copyWalk_refused hpos' hnew' hunknown'
  rw [he']
  exact .error e e'

/-- **The walk over the other classes takes the same steps.** -/
theorem copyWalk_agree {tasks : List CopyTask} {entered finished : List Nat}
    (htasks : ∀ id, .visit id ∈ tasks → id ∈ ix.ids) (hentered : ∀ r ∈ entered, Represents ix c r) :
    Agree (fun order order' : List Nat => order' = order.map position)
      (copyWalk s ix c tasks entered finished)
      (copyWalk s' ix' c' (tasks.map (.rename f position)) (entered.map position)
        (finished.map position)) := by
  -- a representative that has not been entered is not under the name of one that has
  have hapart : ∀ {a p} {entered : List Nat}, ix.position? a = some p →
      c.representative p ∉ entered → (∀ r ∈ entered, Represents ix c r) →
      ∀ r ∈ entered, position (c.representative p) ≠ position r := by
    intro a p entered hpos hnew hentered r hr heq
    rw [h.inj ⟨a, p, hpos, rfl⟩ (hentered r hr) heq] at hnew
    exact hnew hr
  fun_induction copyWalk s ix c tasks entered finished with
  | case1 entered finished =>
    rw [List.map_nil, copyWalk]
    exact .ok rfl
  | case2 entered finished r rest ih =>
    have hnext := ih (fun t ht => htasks t (List.mem_cons_of_mem _ ht)) hentered
    rw [List.map_append] at hnext
    rw [List.map_cons, CopyTask.rename, copyWalk]
    exact hnext
  | case3 entered finished a rest hpos =>
    exact absurd (htasks a List.mem_cons_self) (Index.not_mem_ids_of_position?_eq_none hpos)
  | case4 entered finished a rest p hpos hseen ih =>
    obtain ⟨p', hpos', hrep⟩ := h.class_eq hpos
    rw [List.map_cons, CopyTask.rename, copyWalk_seen hpos' (hrep ▸ List.mem_map_of_mem hseen)]
    exact ih (fun t ht => htasks t (List.mem_cons_of_mem _ ht)) hentered
  | case5 entered finished a rest p hpos hnew hrid =>
    exact h.copyWalk_refused _ hpos (hapart hpos hnew hentered) fun o ho => by
      simp [objectAt?, hrid] at ho
  | case6 entered finished a rest p hpos hnew rid hrid hget =>
    exact h.copyWalk_refused _ hpos (hapart hpos hnew hentered) fun o ho => by
      simp [objectAt?, hrid, hget] at ho
  | case7 entered finished a rest p hpos hnew rid hrid o hget name hname =>
    refine h.copyWalk_refused _ hpos (hapart hpos hnew hentered) fun o' ho => ⟨name, ?_⟩
    obtain rfl : o = o' := by simpa [objectAt?, hrid, hget] using ho
    exact hname
  | case8 entered finished a rest p hpos hnew rid hrid o hget hknown ih =>
    obtain ⟨p', hpos', hrep⟩ := h.class_eq hpos
    have hnew' : c'.representative p' ∉ entered.map position := by
      rw [hrep]
      intro hmem
      obtain ⟨r, hr, heq⟩ := List.mem_map.mp hmem
      exact hapart hpos hnew hentered r hr heq.symm
    have ho := h.object ⟨a, p, hpos, rfl⟩
    rw [← hrep,
      show objectAt? s ix (c.representative p) = some o by simp [objectAt?, hrid, hget]] at ho
    obtain ⟨rid', hrid', hget'⟩ := Option.bind_eq_some_iff.mp ho
    have hknown' : ∀ name, (o.mapIds f).content ≠ .external name := by
      rw [Object.mapIds_eq_copyObject]
      exact known_copyObject _ _ f _ o hknown
    have hnext := ih (visits_indexed_enter h.sound hrid hget htasks) ?_
    · rw [List.map_cons, CopyTask.rename, copyWalk_enter hpos' hnew' hrid' hget' hknown',
        Object.copyOrder_mapIds, hrep]
      simpa [CopyTask.rename, Function.comp_def] using hnext
    · intro r hr
      rcases List.mem_append.mp hr with hr | hr
      · exact hentered r hr
      · exact ⟨a, p, hpos, (List.mem_singleton.mp hr).symm⟩

/-! ## The same copy -/

variable {order : List Nat} (horder : ∀ r ∈ order, Represents ix c r)

include horder

omit [Scalar K] in
/-- Corresponding objects have copies with one id. -/
theorem copyId_eq {a : ObjectId} (ha : a ∈ ix.ids) :
    copyId ix' c' (order.map position) (f a) = copyId ix c order a := by
  obtain ⟨p, hpos, -⟩ := exists_position h.sound (h.sound.mem_ids_iff.mp ha)
  obtain ⟨p', hpos', hrep⟩ := h.class_eq hpos
  rw [copyId_of_position? hpos, copyId_of_position? hpos', hrep,
    idxOf_map fun r hr heq => h.inj (horder r hr) ⟨a, p, hpos, rfl⟩ heq]

/-- **The copies of corresponding objects are the same.** -/
theorem copyObject_eq {r : Nat} {o : Object K} (hr : r ∈ order) (ho : objectAt? s ix r = some o) :
    copyObject c' settings (copyId ix' c' (order.map position)) (position r) (o.mapIds f) =
      copyObject c settings (copyId ix c order) r o := by
  have himage : (o.mapIds f).mapIds (copyId ix' c' (order.map position)) =
      o.mapIds (copyId ix c order) := by
    rw [Object.mapIds_mapIds]
    exact Object.mapIds_congr fun t ht =>
      h.copyId_eq horder (mem_ids_of_mem_targets h.sound ho ht)
  simp only [copyObject, himage]
  congr 1
  cases hignore : settings.ignoreComments with
  | false => rfl
  | true =>
    cases htext : o.attached.hasText with
    | true => simp only [h.text hignore (horder r hr) ho htext]
    | false =>
      have hsame : (o.mapIds (copyId ix c order)).attached.withoutText =
          (o.mapIds (copyId ix c order)).attached := Attachments.withoutText_of_not_hasText htext
      simp only [hsame, ite_self]

/-- The copies in the order of the walk make the same scene. -/
theorem assembled_eq :
    assembled s' ix' c' settings (order.map position) = assembled s ix c settings order := by
  have hcopies : (order.map position).filterMap (fun r => (objectAt? s' ix' r).map
        (copyObject c' settings (copyId ix' c' (order.map position)) r)) =
      order.filterMap fun r =>
        (objectAt? s ix r).map (copyObject c settings (copyId ix c order) r) := by
    rw [List.filterMap_map]
    refine List.filterMap_congr fun r hr => ?_
    rw [Function.comp_apply, h.object (horder r hr)]
    cases ho : objectAt? s ix r with
    | none => simp only [Option.map_none]
    | some o => simp only [Option.map_some, h.copyObject_eq horder hr ho]
  have hroot : copyId ix' c' (order.map position) s'.root = copyId ix c order s.root := by
    rw [h.root]
    exact h.copyId_eq horder h.sound.root_mem
  simp only [assembled, hcopies, hroot]

omit horder

/-- **Parallel classes have the same copy**, or none in either scene. -/
theorem copy_agree : Agree Eq (copy s ix c settings) (copy s' ix' c' settings) := by
  have hwalk : Agree (fun order order' : List Nat => order' = order.map position) (copyOrder s ix c)
      (copyOrder s' ix' c') := by
    rw [copyOrder, copyOrder, h.root]
    exact h.copyWalk_agree (visits_indexed_start h.sound) (by simp)
  have horders := hwalk.and_left fun order horder => fun r hr => (known_of_copyOrder horder r hr).1
  refine Agree.eq_iff.mpr fun out => ?_
  rw [copy_eq_ok_iff, copy_eq_ok_iff]
  generalize copyOrder s ix c = x at horders ⊢
  generalize copyOrder s' ix' c' = y at horders ⊢
  cases horders with
  | error e e' => simp
  | ok hab =>
    obtain ⟨hrepresents, rfl⟩ := hab
    have hsame := h.assembled_eq hrepresents
    simp only [Except.ok.injEq, exists_eq_left', hsame]

end Parallel
end Merge

/-- Where the copies agree the optimizer makes the same scene. -/
theorem Scene.optimize_agree_of_copy_agree {s s' : Scene K} {ix ix' : Index}
    {settings : OptimizerSettings} (hix : Index.build s = .ok ix) (hix' : Index.build s' = .ok ix')
    (h : Agree Eq (Merge.copy s ix (Classes.ofIndex s ix settings) settings)
      (Merge.copy s' ix' (Classes.ofIndex s' ix' settings) settings)) :
    Agree (fun out out' => out'.scene = out.scene) (s.optimize settings)
      (s'.optimize settings) := by
  rw [optimize, optimize, hix, hix']
  show Agree _ (Merge.copy s ix _ settings >>= _) (Merge.copy s' ix' _ settings >>= _)
  refine Agree.bind h fun copied copied' hcopied => ?_
  subst hcopied
  cases settings.keepTree with
  | true => exact .ok rfl
  | false =>
    cases Reduction.reduce copied with
    | ok reduction out => exact .ok rfl
    | error e out => exact .error e e

end Diorama
