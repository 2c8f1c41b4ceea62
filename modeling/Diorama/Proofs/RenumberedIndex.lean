/-
  Indexing a scene under other ids.

  A scene is renumbered if what its root leads to is found in another scene under other ids, with
  all references changed accordingly and no two objects under one id.  The other scene may hold more
  objects, in any places; nothing leads to them.  References that lead nowhere lead nowhere in the
  other scene too.

  The walk that indexes a scene looks ids up and compares them, and never asks what they are.  So it
  takes the same steps in the other scene (`walk_mapIds`): both walks are refused, or the second one
  gives the same index with the other ids (`build_agree`).
-/
import Mathlib
import Diorama.Proofs.CopiedObjects
import Diorama.Proofs.Indexability

namespace Diorama

variable {K : Type}

/-! ## Renumbered scenes -/

/-- What the root of a scene leads to is found in another scene under other ids. -/
structure Scene.Renumbered (f : ObjectId → ObjectId) (s s' : Scene K) : Prop where
  root : s'.root = f s.root
  object {a : ObjectId} : s.Reaches s.root a → s'.get? (f a) = (s.get? a).map (·.mapIds f)
  inj {a b : ObjectId} : a ∈ s.reachable → b ∈ s.reachable → f a = f b → a = b

namespace Scene

/-- What the root reaches and what is there is reachable. -/
theorem mem_reachable_of_reaches {s : Scene K} {a : ObjectId} {o : Object K}
    (h : s.Reaches s.root a) (ho : s.get? a = some o) : a ∈ s.reachable := by
  induction h generalizing o with
  | refl => exact root_mem_reachable ho
  | tail _ hbc ih =>
    obtain ⟨p, hp, -⟩ := exists_get?_of_refers hbc
    exact mem_reachable_of_refers (ih hp) hbc ho

/-- The id of an object is not the new id of anything else, also of what is missing. -/
theorem Renumbered.eq_of_eq {f : ObjectId → ObjectId} {s s' : Scene K} (h : s.Renumbered f s')
    {a b : ObjectId} (ha : a ∈ s.reachable) (hb : s.Reaches s.root b) (heq : f a = f b) :
    a = b := by
  obtain ⟨o, ho⟩ := get?_of_mem_reachable ha
  cases hget : s.get? b with
  | some p => exact h.inj ha (mem_reachable_of_reaches hb hget) heq
  | none =>
    have hsome := h.object (reaches_of_mem_reachable ha)
    rw [heq, h.object hb, hget, ho] at hsome
    cases hsome

end Scene

/-! ## Indexes under other ids -/

/-- A renamed object has the renamed references, those of its animators included. -/
theorem Object.references_mapIds (f : ObjectId → ObjectId) (o : Object K) :
    (o.mapIds f).references = o.references.map (·.retarget f) := by
  have hcontent : (o.mapIds f).content.references = o.content.references.map (·.retarget f) :=
    o.content.references_mapIds f
  rw [references, references, hcontent, o.animatorReferences_mapIds f, List.map_append]

namespace Index

variable (f : ObjectId → ObjectId)

/-- The same index under other ids. -/
def mapIds (ix : Index) : Index :=
  { ix with nodes := ix.nodes.map fun n => { n with object := f n.object } }

/-- The same step under other ids. -/
def Task.mapIds : Task → Task
  | .follow holder position r => .follow (f holder) position (r.retarget f)
  | .leave position => .leave position

@[simp] theorem ids_mapIds (ix : Index) : (ix.mapIds f).ids = ix.ids.map f := by
  simp [ids, mapIds]

@[simp] theorem size_mapIds (ix : Index) : (ix.mapIds f).size = ix.size := by
  simp [size, mapIds]

/-- Entering an object under its new id. -/
theorem enter_mapIds (ix : Index) (id : ObjectId) (rs : List InReference) :
    (ix.enter id rs).mapIds f = (ix.mapIds f).enter (f id) rs := by
  simp [enter, mapIds]

theorem refer_mapIds (ix : Index) (position : Nat) (r : InReference) :
    (ix.refer position r).mapIds f = (ix.mapIds f).refer position r := by
  have hnodes : ∀ l : List Node,
      (l.modify position fun n => { n with inReferences := n.inReferences ++ [r] }).map
          (fun n => { n with object := f n.object }) =
        (l.map fun n => { n with object := f n.object }).modify position fun n =>
          { n with inReferences := n.inReferences ++ [r] } := by
    intro l
    apply List.ext_getElem?
    intro i
    simp only [List.getElem?_map, List.getElem?_modify]
    cases l[i]? with
    | none => rfl
    | some n => by_cases hi : position = i <;> simp [hi]
  simp only [refer, mapIds, hnodes]

/-- The tasks of a renamed object are the renamed tasks. -/
theorem visit_mapIds (o : Object K) (id : ObjectId) (position : Nat) :
    Task.visit (o.mapIds f) (f id) position = (Task.visit o id position).map (.mapIds f) := by
  simp [Task.visit, Object.references_mapIds, Task.mapIds, Function.comp_def]

variable {f}

/-- An id is found at the same position if no other one is changed to the same. -/
theorem position?_mapIds {ix : Index} {id : ObjectId}
    (hinj : ∀ a ∈ ix.ids, f a = f id → a = id) :
    (ix.mapIds f).position? (f id) = ix.position? id := by
  have hlist : ∀ l : List ObjectId, (∀ a ∈ l, f a = f id → a = id) →
      (l.map f).idxOf? (f id) = l.idxOf? id := by
    intro l hl
    induction l with
    | nil => rfl
    | cons a l ih =>
      obtain ⟨ha, hl⟩ := List.forall_mem_cons.mp hl
      rw [List.map_cons, List.idxOf?_cons, List.idxOf?_cons, ih hl]
      by_cases hsame : a = id
      · simp [hsame]
      · have hne : f a ≠ f id := fun heq => hsame (ha heq)
        simp [hsame, hne]
  rw [position?, position?, ids_mapIds]
  exact hlist ix.ids hinj

/-- Key frames are checked without regard to ids, except in the error. -/
theorem checkFrames_agree (id : ObjectId) (o : Object K) (f : ObjectId → ObjectId) :
    Agree Eq (checkFrames id o) (checkFrames (f id) (o.mapIds f)) := by
  obtain ⟨attached, content⟩ := o
  cases content with
  | keyFrameAnimation a =>
    simp only [checkFrames, Object.mapIds, Content.mapIds, KeyFrameAnimation.mismatch_mapIds]
    cases a.frames.findIdx? fun k => !k.value.fits a.kind with
    | none => exact .ok rfl
    | some i => exact .error _ _
  | _ => exact .ok rfl

/-! ## The walk takes the same steps -/

/-- What following a reference amounts to. -/
theorem walk_follow (s : Scene K) (holder : ObjectId) (position : Nat) (r : Reference)
    (rest : List Task) (ix : Index) : walk s (.follow holder position r :: rest) ix =
    match ix.position? r.target, s.get? r.target with
    | some p, _ =>
      if p ∈ ix.postOrder then walk s rest (ix.refer p ⟨position, r.slot⟩)
      else .error (.cycle holder r.target)
    | none, none => .error (.danglingReference holder r.target)
    | none, some o => checkFrames r.target o >>= fun _ =>
      walk s (Task.visit o r.target ix.size ++ rest) (ix.enter r.target [⟨position, r.slot⟩]) := by
  rw [walk]
  split
  · rename_i p hpos
    simp only [hpos]
  · rename_i hpos
    split
    · rename_i hget
      simp only [hpos, hget]
    · rename_i o hget
      simp only [hpos, hget]
      split
      · rename_i e hframes
        rw [hframes]
        rfl
      · rename_i hframes
        rw [hframes]
        rfl

/-- **The walk takes the same steps** in a renumbered scene. -/
theorem walk_mapIds {s s' : Scene K} (h : s.Renumbered f s') {tasks : List Task} {ix : Index}
    (hwalking : Walking s tasks ix) : Agree (fun out out' => out' = out.mapIds f) (walk s tasks ix)
      (walk s' (tasks.map (.mapIds f)) (ix.mapIds f)) := by
  -- what is followed is found at the same position
  have hposition : ∀ {ix : Index} {holder position r rest},
      Walking s (.follow holder position r :: rest) ix → s.Reaches s.root r.target ∧
        (ix.mapIds f).position? (r.retarget f).target = ix.position? r.target := by
    intro ix holder position r rest hwalking
    obtain ⟨hholder, hrefers⟩ := hwalking.followed holder position r List.mem_cons_self
    have hreaches := (hwalking.reached holder hholder).tail hrefers
    refine ⟨hreaches, position?_mapIds fun a ha heq => ?_⟩
    obtain ⟨o, ho, -⟩ := hwalking.object a ha
    exact h.eq_of_eq (Scene.mem_reachable_of_reaches (hwalking.reached a ha) ho) hreaches heq
  fun_induction walk s tasks ix with
  | case1 ix =>
    rw [List.map_nil, walk]
    exact .ok rfl
  | case2 ix p rest ih =>
    rw [List.map_cons, Task.mapIds, walk]
    exact ih hwalking.leave_step
  | case3 ix holder position r rest p hpos hp ih =>
    obtain ⟨-, hsame⟩ := hposition hwalking
    rw [List.map_cons, Task.mapIds, walk_follow, hsame]
    simp only [hpos]
    have hnext := ih (hwalking.refer_step hpos hp _)
    rw [refer_mapIds] at hnext
    rw [if_pos (show p ∈ (ix.mapIds f).postOrder from hp)]
    exact hnext
  | case4 ix holder position r rest p hpos hp =>
    obtain ⟨-, hsame⟩ := hposition hwalking
    rw [List.map_cons, Task.mapIds, walk_follow, hsame]
    simp only [hpos]
    rw [if_neg (show p ∉ (ix.mapIds f).postOrder from hp)]
    exact .error _ _
  | case5 ix holder position r rest hpos hget =>
    obtain ⟨hreaches, hsame⟩ := hposition hwalking
    have hget' := h.object hreaches
    rw [hget] at hget'
    rw [List.map_cons, Task.mapIds, walk_follow, hsame]
    simp only [hpos, Reference.retarget_target, hget']
    exact .error _ _
  | case6 ix holder position r rest hpos o hget e hframes =>
    obtain ⟨hreaches, hsame⟩ := hposition hwalking
    have hget' := h.object hreaches
    rw [hget] at hget'
    have hcheck := checkFrames_agree r.target o f
    rw [hframes] at hcheck
    rw [List.map_cons, Task.mapIds, walk_follow, hsame]
    simp only [hpos, Reference.retarget_target, hget', Option.map_some]
    generalize checkFrames (f r.target) (o.mapIds f) = check at hcheck ⊢
    cases hcheck with
    | error _ e' => exact .error e e'
  | case7 ix holder position r rest hpos o hget hframes ih =>
    obtain ⟨hreaches, hsame⟩ := hposition hwalking
    have hget' := h.object hreaches
    rw [hget] at hget'
    have hcheck := checkFrames_agree r.target o f
    rw [hframes] at hcheck
    have hnext := ih (hwalking.enter_step hpos hget hframes _)
    rw [List.map_append, ← visit_mapIds, enter_mapIds] at hnext
    rw [List.map_cons, Task.mapIds, walk_follow, hsame]
    simp only [hpos, Reference.retarget_target, hget', Option.map_some, size_mapIds]
    generalize checkFrames (f r.target) (o.mapIds f) = check at hcheck ⊢
    cases hcheck with
    | ok _ => exact hnext

/-- **A renumbered scene is indexed alike.** -/
theorem build_agree {s s' : Scene K} (h : s.Renumbered f s') :
    Agree (fun ix ix' => ix.Sound s ∧ ix' = ix.mapIds f) (build s) (build s') := by
  refine Agree.and_left ?_ fun ix => sound_of_build
  have hget' := h.object .refl
  rw [build, build, h.root, hget']
  cases hget : s.get? s.root with
  | none => exact .error _ _
  | some o =>
    have hcheck := (checkFrames_agree s.root o f).and_left fun _ hframes => hframes
    refine hcheck.bind fun _ _ hchecked => ?_
    obtain ⟨hframes, -⟩ := hchecked
    have hwalk := walk_mapIds h (.start hget hframes)
    rwa [← visit_mapIds, enter_mapIds] at hwalk

end Index
end Diorama
