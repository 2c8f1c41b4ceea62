/-
  What an index holds.

  If a scene can be indexed, then the index lists objects of the arena, each once and the root
  first, that the root reaches; what they refer to is in the index too; and `postOrder` is a
  permutation of the positions in which an object comes after everything it refers to.

  The last part is what makes everything that recurses along references end: `Index.rank`, the place
  of an object in `postOrder`, drops with every reference (`Sound.rank_lt`).

  The crux is `Settled`, an invariant on the tasks that are still to be taken.  Read from the front,
  every task promises that some object will have been left once the task is done, and when the task
  of leaving an object comes up, everything that the object refers to has been left or promised
  before.
-/
import Mathlib.Data.List.Perm.Subperm
import Diorama.Proofs.Reachability
import Diorama.Scene.Index

namespace Diorama.Index

variable {K : Type} {s : Scene K}

/-! ## Positions -/

theorem size_eq_length_ids (ix : Index) : ix.size = ix.ids.length := by simp [size, ids]

/-- An object is in the position it is found in. -/
theorem position?_eq_some {ix : Index} {id : ObjectId} {p : Nat} (h : ix.position? id = some p) :
    ix.ids[p]? = some id := by
  rw [position?, List.idxOf?_eq_some_iff] at h
  obtain ⟨hlt, heq, -⟩ := h
  exact List.getElem?_eq_some_iff.mpr ⟨hlt, by simpa using heq⟩

/-- An object is found in the position it is in, if no object is there twice. -/
theorem position?_of_getElem? {ix : Index} (hnodup : ix.ids.Nodup) {id : ObjectId} {p : Nat}
    (h : ix.ids[p]? = some id) : ix.position? id = some p := by
  obtain ⟨hlt, heq⟩ := List.getElem?_eq_some_iff.mp h
  rw [position?, List.idxOf?_eq_some_iff]
  refine ⟨hlt, by simpa using heq, fun j hj => ?_⟩
  intro hjp
  have hsame : ix.ids[j] = ix.ids[p] := by
    rw [heq]
    simpa using hjp
  have := (hnodup.getElem_inj_iff).mp hsame
  omega

/-! ## Tasks and what they promise -/

/-- The positions that are still to be left. -/
def pending : List Task → List Nat
  | [] => []
  | .follow _ _ _ :: rest => pending rest
  | .leave p :: rest => p :: pending rest

/-- What is pending after tasks in a row. -/
@[simp] theorem pending_append (tasks rest : List Task) :
    pending (tasks ++ rest) = pending tasks ++ pending rest := by
  induction tasks with
  | nil => rfl
  | cons task tasks ih => cases task <;> simp [pending, ih]

@[simp] theorem pending_visit (o : Object K) (id : ObjectId) (p : Nat) :
    pending (Task.visit o id p) = [p] := by
  have h : ∀ rs : List Reference, pending (rs.map (Task.follow id p)) = [] := by
    intro rs
    induction rs with
    | nil => rfl
    | cons r rs ih => simpa [pending] using ih
  simp [Task.visit, pending, h]

/-- Everything that an object refers to is promised before the object is left; a task promises that
the object it follows a reference to, or that it leaves, will have been left. -/
def Settled (s : Scene K) (ids : List ObjectId) (promised : ObjectId → Prop) : List Task → Prop
  | [] => True
  | .follow _ _ r :: rest => Settled s ids (fun b => promised b ∨ b = r.target) rest
  | .leave p :: rest =>
    (∀ a b, ids[p]? = some a → s.Refers a b → promised b) ∧
      Settled s ids (fun b => promised b ∨ ids[p]? = some b) rest

/-- Fewer positions, or more that is done, leave what is settled settled. -/
theorem Settled.mono {ids ids' : List ObjectId} {P Q : ObjectId → Prop} {tasks : List Task}
    (h : Settled s ids P tasks) (hPQ : ∀ b, P b → Q b)
    (hids : ∀ p ∈ pending tasks, ids'[p]? = ids[p]?) : Settled s ids' Q tasks := by
  induction tasks generalizing P Q with
  | nil => trivial
  | cons task rest ih =>
    cases task with
    | follow holder p r =>
      exact ih h (fun b hb => hb.imp (hPQ b) id) hids
    | leave p =>
      obtain ⟨hleave, hrest⟩ := h
      have hp : ids'[p]? = ids[p]? := hids p (by simp [pending])
      refine ⟨fun a b ha hab => hPQ b (hleave a b (hp ▸ ha) hab), ih hrest ?_ ?_⟩
      · intro b hb
        rw [hp]
        exact hb.imp (hPQ b) id
      · exact fun q hq => hids q (by simp [pending, hq])

/-- Following all references of an object promises everything it refers to, and leaving it promises
the object. -/
theorem Settled.visit {ids : List ObjectId} {P : ObjectId → Prop} {o : Object K} {id : ObjectId}
    {p : Nat} {rest : List Task} (hget : s.get? id = some o) (hid : ids[p]? = some id)
    (h : Settled s ids (fun b => P b ∨ b = id) rest) :
    Settled s ids P (Task.visit o id p ++ rest) := by
  have hfollow : ∀ (rs : List Reference) (Q : ObjectId → Prop), (∀ b, P b → Q b) →
      (∀ b ∈ o.targets, Q b ∨ b ∈ rs.map (·.target)) →
      Settled s ids Q (rs.map (Task.follow id p) ++ (.leave p :: rest)) := by
    intro rs
    induction rs with
    | nil =>
      intro Q hPQ hall
      refine ⟨fun a b ha hab => ?_, h.mono (fun b hb => ?_) (fun _ _ => rfl)⟩
      · obtain rfl : id = a := Option.some.inj (hid.symm.trans ha)
        rw [Scene.Refers, Scene.targetsOf_of_get? hget] at hab
        simpa using hall b hab
      · rcases hb with hb | rfl
        · exact Or.inl (hPQ b hb)
        · exact Or.inr hid
    | cons r rs ih =>
      intro Q hPQ hall
      refine ih (fun b => Q b ∨ b = r.target) (fun b hb => Or.inl (hPQ b hb)) (fun b hb => ?_)
      rcases hall b hb with h | h
      · exact Or.inl (Or.inl h)
      · rcases List.mem_cons.mp h with h | h
        · exact Or.inl (Or.inr h)
        · exact Or.inr h
  have := hfollow o.references P (fun _ hb => hb) (fun b hb => Or.inr hb)
  simpa [Task.visit] using this

/-! ## The invariant of the walk -/

/-- The object has been left. -/
def Left (ix : Index) (id : ObjectId) : Prop := ∃ p ∈ ix.postOrder, ix.ids[p]? = some id

/-- What holds between two steps of the walk. -/
structure Walking (s : Scene K) (tasks : List Task) (ix : Index) : Prop where
  nodup : ix.ids.Nodup
  root : ix.ids[0]? = some s.root
  object : ∀ id ∈ ix.ids, ∃ o, s.get? id = some o ∧ checkFrames id o = .ok ()
  reached : ∀ id ∈ ix.ids, s.Reaches s.root id
  /-- References that are still to be followed are references of indexed objects. -/
  followed : ∀ holder p r, .follow holder p r ∈ tasks → holder ∈ ix.ids ∧ s.Refers holder r.target
  /-- Every position has been left or will be left, once. -/
  positions : (ix.postOrder ++ pending tasks).Perm (List.range ix.size)
  settled : Settled s ix.ids ix.Left tasks
  /-- What an object refers to stands before it in `postOrder`. -/
  ordered : ∀ (i p : Nat) (a b : ObjectId), ix.postOrder[i]? = some p → ix.ids[p]? = some a →
    s.Refers a b → ∃ j q, j < i ∧ ix.postOrder[j]? = some q ∧ ix.ids[q]? = some b

namespace Walking

variable {ix : Index} {rest : List Task}

/-- An object is left after everything it refers to. -/
theorem leave_step {p : Nat} (h : Walking s (.leave p :: rest) ix) :
    Walking s rest (ix.leave p) := by
  obtain ⟨hleave, hrest⟩ := h.settled
  refine
    { nodup := h.nodup
      root := h.root
      object := h.object
      reached := h.reached
      followed := fun holder q r hmem => h.followed holder q r (List.mem_cons_of_mem _ hmem)
      positions := by simpa [pending, leave, size] using h.positions
      settled := hrest.mono (fun b hb => ?_) (fun _ _ => rfl)
      ordered := fun i q a b hi ha hab => ?_ }
  · rcases hb with ⟨q, hq, hqb⟩ | hb
    · exact ⟨q, by simp [leave, hq], hqb⟩
    · exact ⟨p, by simp [leave], hb⟩
  · change (ix.postOrder ++ [p])[i]? = some q at hi
    rcases Nat.lt_or_ge i ix.postOrder.length with hlt | hge
    · rw [List.getElem?_append_left hlt] at hi
      obtain ⟨j, r, hj, hjr, hrb⟩ := h.ordered i q a b hi ha hab
      exact ⟨j, r, hj, (List.getElem?_append_left (by omega)).trans hjr, hrb⟩
    · -- the object that is left now: all it refers to has been left
      have hlast : i = ix.postOrder.length ∧ q = p := by
        rw [List.getElem?_append_right hge] at hi
        have hzero : i - ix.postOrder.length = 0 := by
          by_contra hne
          obtain ⟨k, hk⟩ := Nat.exists_eq_succ_of_ne_zero hne
          rw [hk] at hi
          simp at hi
        rw [hzero] at hi
        exact ⟨by omega, by simpa using hi.symm⟩
      obtain ⟨rfl, rfl⟩ := hlast
      obtain ⟨r, hr, hrb⟩ := hleave a b ha hab
      obtain ⟨j, hj, hjr⟩ := List.getElem_of_mem hr
      exact ⟨j, r, hj, (List.getElem?_append_left hj).trans
        (List.getElem?_eq_some_iff.mpr ⟨hj, hjr⟩), hrb⟩

/-- A reference to an object that was left is filed under it. -/
theorem refer_step {holder : ObjectId} {position p : Nat} {r : Reference}
    (h : Walking s (.follow holder position r :: rest) ix) (hpos : ix.position? r.target = some p)
    (hp : p ∈ ix.postOrder) (x : InReference) : Walking s rest (ix.refer p x) where
  nodup := by simpa using h.nodup
  root := by simpa using h.root
  object := by simpa using h.object
  reached := by simpa using h.reached
  followed holder q r hmem := by
    simpa using h.followed holder q r (List.mem_cons_of_mem _ hmem)
  positions := by
    have hsize : (ix.refer p x).size = ix.size := by simp [size, refer]
    rw [hsize]
    exact h.positions
  settled := by
    have hrest : Settled s ix.ids (fun b => ix.Left b ∨ b = r.target) rest := h.settled
    refine hrest.mono (fun b hb => ?_) (fun _ _ => by rw [ids_refer])
    rcases hb with ⟨q, hq, hqb⟩ | rfl
    · exact ⟨q, hq, by simpa using hqb⟩
    · exact ⟨p, hp, by simpa using position?_eq_some hpos⟩
  ordered i q a b hi ha hab := by
    rw [ids_refer] at ha ⊢
    exact h.ordered i q a b hi ha hab

/-- A reference to an object that was not seen enters it. -/
theorem enter_step {holder : ObjectId} {position : Nat} {r : Reference} {o : Object K}
    (h : Walking s (.follow holder position r :: rest) ix) (hpos : ix.position? r.target = none)
    (hget : s.get? r.target = some o) (hframes : checkFrames r.target o = .ok ())
    (xs : List InReference) :
    Walking s (Task.visit o r.target ix.size ++ rest) (ix.enter r.target xs) := by
  have hnew : r.target ∉ ix.ids := not_mem_ids_of_position?_eq_none hpos
  obtain ⟨hholder, hrefers⟩ := h.followed holder position r (by simp)
  have hlast : (ix.enter r.target xs).ids[ix.size]? = some r.target := by
    simp [size_eq_length_ids]
  -- old positions keep their objects
  have hold : ∀ p, p < ix.size → (ix.enter r.target xs).ids[p]? = ix.ids[p]? := by
    intro p hp
    rw [ids_enter, List.getElem?_append_left (by rwa [← size_eq_length_ids])]
  have hlt : ∀ p ∈ ix.postOrder ++ pending rest, p < ix.size := by
    intro p hp
    exact List.mem_range.mp (h.positions.subset hp)
  have hsize : (ix.enter r.target xs).size = ix.size + 1 := by simp [size, enter]
  refine
    { nodup := ?_
      root := ?_
      object := fun id hid => ?_
      reached := fun id hid => ?_
      followed := fun holder' p r' hmem => ?_
      positions := ?_
      settled := Settled.visit hget hlast ?_
      ordered := fun i p a b hi ha hab => ?_ }
  · rw [ids_enter]
    refine List.nodup_append.mpr ⟨h.nodup, by simp, ?_⟩
    rintro a ha b hb rfl
    obtain rfl : a = r.target := by simpa using hb
    exact hnew ha
  · rw [hold 0 ?_]
    · exact h.root
    · obtain ⟨hlt, -⟩ := List.getElem?_eq_some_iff.mp h.root
      rwa [size_eq_length_ids]
  · rw [ids_enter] at hid
    rcases List.mem_append.mp hid with hid | hid
    · exact h.object id hid
    · obtain rfl : id = r.target := by simpa using hid
      exact ⟨o, hget, hframes⟩
  · rw [ids_enter] at hid
    rcases List.mem_append.mp hid with hid | hid
    · exact h.reached id hid
    · obtain rfl : id = r.target := by simpa using hid
      exact (h.reached holder hholder).tail hrefers
  · rw [ids_enter]
    rcases List.mem_append.mp hmem with hmem | hmem
    · obtain ⟨hr', rfl⟩ : r' ∈ o.references ∧ r.target = holder' := by
        simp only [Task.visit, List.mem_append, List.mem_map, Task.follow.injEq,
          List.mem_singleton, reduceCtorEq, or_false] at hmem
        obtain ⟨x, hx, rfl, -, rfl⟩ := hmem
        exact ⟨hx, rfl⟩
      exact ⟨by simp, Scene.refers_of_get? hget (List.mem_map_of_mem hr')⟩
    · obtain ⟨hin, href⟩ := h.followed holder' p r' (List.mem_cons_of_mem _ hmem)
      exact ⟨by simp [hin], href⟩
  · rw [hsize, List.range_succ, pending_append, pending_visit]
    have hperm : (ix.postOrder ++ pending rest).Perm (List.range ix.size) := h.positions
    refine List.Perm.trans ?_ (hperm.append_right [ix.size])
    show (ix.postOrder ++ ([ix.size] ++ pending rest)).Perm _
    rw [List.append_assoc]
    exact List.perm_append_comm.append_left _
  · have hrest : Settled s ix.ids (fun b => ix.Left b ∨ b = r.target) rest := h.settled
    refine hrest.mono (fun b hb => ?_) (fun p hp => hold p (hlt p (by simp [hp])))
    rcases hb with ⟨q, hq, hqb⟩ | hb
    · exact Or.inl ⟨q, hq, (hold q (hlt q (by simp [hq]))).trans hqb⟩
    · exact Or.inr hb
  · have hmem : p ∈ ix.postOrder := List.mem_of_getElem? hi
    rw [hold p (hlt p (by simp [hmem]))] at ha
    obtain ⟨j, q, hj, hjq, hqb⟩ := h.ordered i p a b hi ha hab
    have hq : q ∈ ix.postOrder := List.mem_of_getElem? hjq
    exact ⟨j, q, hj, hjq, (hold q (hlt q (by simp [hq]))).trans hqb⟩

end Walking

/-- The walk starts with the visit of the root. -/
theorem Walking.start {o : Object K} (hget : s.get? s.root = some o)
    (hframes : checkFrames s.root o = .ok ()) :
    Walking s (Task.visit o s.root 0) (enter {} s.root []) where
  nodup := by simp [ids, enter]
  root := by simp [ids, enter]
  object := fun id hid => by
    obtain rfl : id = s.root := by simpa [ids, enter] using hid
    exact ⟨o, hget, hframes⟩
  reached := fun id hid => by
    obtain rfl : id = s.root := by simpa [ids, enter] using hid
    exact Relation.ReflTransGen.refl
  followed := fun holder p r hmem => by
    simp only [Task.visit, List.mem_append, List.mem_map, Task.follow.injEq,
      List.mem_singleton, reduceCtorEq, or_false] at hmem
    obtain ⟨x, hx, rfl, -, rfl⟩ := hmem
    exact ⟨by simp [ids, enter], Scene.refers_of_get? hget (List.mem_map_of_mem hx)⟩
  positions := by simp [enter, size]
  settled := by
    have hvisit : Settled s (enter {} s.root []).ids (enter {} s.root []).Left
        (Task.visit o s.root 0 ++ []) := Settled.visit hget (by simp [ids, enter]) trivial
    simpa using hvisit
  ordered := fun i p a b hi => by simp [enter] at hi

/-- **The walk keeps its invariant** up to the end, where nothing is left to do. -/
theorem walking_of_walk {tasks : List Task} {ix out : Index} (hwalk : walk s tasks ix = .ok out)
    (h : Walking s tasks ix) : Walking s [] out := by
  fun_induction walk s tasks ix with
  | case1 ix =>
    obtain rfl := Except.ok.inj hwalk
    exact h
  | case2 ix p rest ih => exact ih hwalk h.leave_step
  | case3 ix holder position r rest p hpos hp ih => exact ih hwalk (h.refer_step hpos hp _)
  | case4 => nomatch hwalk
  | case5 => nomatch hwalk
  | case6 => nomatch hwalk
  | case7 ix holder position r rest hpos o hget hframes ih =>
    exact ih hwalk (h.enter_step hpos hget hframes _)

/-! ## What an index holds -/

/-- The index lists what the root reaches, and `postOrder` puts what an object refers to first. -/
structure Sound (s : Scene K) (ix : Index) : Prop where
  nodup : ix.ids.Nodup
  root : ix.ids[0]? = some s.root
  object : ∀ id ∈ ix.ids, ∃ o, s.get? id = some o ∧ checkFrames id o = .ok ()
  reached : ∀ id ∈ ix.ids, s.Reaches s.root id
  postOrder_perm : ix.postOrder.Perm (List.range ix.size)
  ordered : ∀ (i p : Nat) (a b : ObjectId), ix.postOrder[i]? = some p → ix.ids[p]? = some a →
    s.Refers a b → ∃ j q, j < i ∧ ix.postOrder[j]? = some q ∧ ix.ids[q]? = some b

/-- **The index that is built is sound.** -/
theorem sound_of_build {ix : Index} (h : build s = .ok ix) : Sound s ix := by
  unfold build at h
  cases hget : s.get? s.root with
  | none => simp [hget] at h
  | some o =>
    rw [hget] at h
    simp only [bind, Except.bind] at h
    cases hframes : checkFrames s.root o with
    | error e => simp [hframes] at h
    | ok u =>
      rw [hframes] at h
      have hend := walking_of_walk h (Walking.start hget hframes)
      exact ⟨hend.nodup, hend.root, hend.object, hend.reached,
        by simpa [pending] using hend.positions, hend.ordered⟩

/-- The place of an object in `postOrder`. -/
def rank (ix : Index) (id : ObjectId) : Nat := ix.postOrder.idxOf (ix.ids.idxOf id)

namespace Sound

variable {ix : Index}

theorem root_mem (h : Sound s ix) : s.root ∈ ix.ids := List.mem_of_getElem? h.root

/-- An indexed object is in its position. -/
theorem getElem?_idxOf {id : ObjectId} (hid : id ∈ ix.ids) :
    ix.ids[ix.ids.idxOf id]? = some id := by
  have hlt := List.idxOf_lt_length_of_mem hid
  exact List.getElem?_eq_some_iff.mpr ⟨hlt, List.getElem_idxOf hlt⟩

/-- Every indexed object has been left. -/
theorem idxOf_mem_postOrder (h : Sound s ix) {id : ObjectId} (hid : id ∈ ix.ids) :
    ix.ids.idxOf id ∈ ix.postOrder := by
  refine h.postOrder_perm.symm.subset (List.mem_range.mpr ?_)
  rw [size_eq_length_ids]
  exact List.idxOf_lt_length_of_mem hid

/-- Ranks are positions in the order of leaving, so they are below the size. -/
theorem rank_lt_size (h : Sound s ix) {id : ObjectId} (hid : id ∈ ix.ids) :
    ix.rank id < ix.size := by
  have hlen : ix.postOrder.length = ix.size := by simpa using h.postOrder_perm.length_eq
  rw [← hlen]
  exact List.idxOf_lt_length_of_mem (h.idxOf_mem_postOrder hid)

/-- A reference leads to an indexed object that comes earlier in `postOrder`. -/
theorem rank_lt (h : Sound s ix) {a b : ObjectId} (ha : a ∈ ix.ids) (hab : s.Refers a b) :
    b ∈ ix.ids ∧ ix.rank b < ix.rank a := by
  have hpos := h.idxOf_mem_postOrder ha
  have hlt := List.idxOf_lt_length_of_mem hpos
  have hi : ix.postOrder[ix.rank a]? = some (ix.ids.idxOf a) :=
    List.getElem?_eq_some_iff.mpr ⟨hlt, List.getElem_idxOf hlt⟩
  obtain ⟨j, q, hj, hjq, hqb⟩ := h.ordered _ _ a b hi (getElem?_idxOf ha) hab
  have hb : b ∈ ix.ids := List.mem_of_getElem? hqb
  have hq : ix.ids.idxOf b = q := by
    obtain ⟨hqlt, hqb⟩ := List.getElem?_eq_some_iff.mp hqb
    rw [← hqb]
    exact h.nodup.idxOf_getElem q hqlt
  refine ⟨hb, ?_⟩
  have hle : ix.postOrder.idxOf q ≤ j := by
    obtain ⟨hjlt, hjq⟩ := List.getElem?_eq_some_iff.mp hjq
    have hnodup : ix.postOrder.Nodup := h.postOrder_perm.nodup_iff.mpr List.nodup_range
    rw [← hjq]
    exact Nat.le_of_eq (hnodup.idxOf_getElem j hjlt)
  unfold rank at hj ⊢
  rw [hq]
  omega

/-- Distinct objects of the arena are indexed, so there are no more of them than places. -/
theorem size_le (h : Sound s ix) : ix.size ≤ s.size := by
  have hnodup : (ix.ids.map ObjectId.index).Nodup :=
    h.nodup.map fun _ _ => ObjectId.index_injective
  have hsub : ix.ids.map ObjectId.index ⊆ List.range s.size := by
    intro i hi
    obtain ⟨id, hid, rfl⟩ := List.mem_map.mp hi
    obtain ⟨o, hget, -⟩ := h.object id hid
    exact List.mem_range.mpr (Scene.index_lt_size hget)
  have := (List.subperm_of_subset hnodup hsub).length_le
  simpa [size_eq_length_ids] using this

end Sound
end Diorama.Index
