/-
  The order of a first visit.

  Follow the references of an object, and those of what it refers to, as if nothing were shared: an
  object that is referred to twice is visited twice.  The list of these visits is the unfolding of
  the object.

  A walk from the root visits everything once.  What it lists is the unfolding of the root with the
  first visit of every object kept (`reachable_eq_eraseDups`).  For that the walk must never skip an
  object too early: when it comes upon an object that has been visited, everything below has been
  visited as well.  The invariant is `Trailing`.  An object whose references are still to be
  followed is higher than all that comes before them, so it is not met again in the meantime.

  An index lists the objects in the order of the walk (`Index.ids_eq_reachable`).
-/
import Mathlib
import Diorama.Proofs.Indexability

namespace Diorama

/-! ## First occurrences -/

section

variable {α β : Type} [DecidableEq α] [DecidableEq β]

theorem eraseDups_concat (l : List α) (a : α) :
    (l ++ [a]).eraseDups = if a ∈ l then l.eraseDups else l.eraseDups ++ [a] := by
  rw [List.eraseDups_append]
  by_cases h : a ∈ l <;> simp [List.removeAll, h, List.eraseDups_cons]

/-- What has occurred before may be left out. -/
theorem eraseDups_append_of_subset {l m r : List α} (h : m ⊆ l) :
    (l ++ (m ++ r)).eraseDups = (l ++ r).eraseDups := by
  have hnothing : m.removeAll l = [] := by
    simpa [List.removeAll] using fun a ha => h ha
  have hrest : r.removeAll (l ++ m) = r.removeAll l := by
    refine List.filter_congr fun a _ => ?_
    have hmem : a ∈ l ++ m ↔ a ∈ l :=
      ⟨fun ha => (List.mem_append.mp ha).elim id fun ham => h ham, List.mem_append_left m⟩
    simp only [List.elem_eq_mem, hmem]
  rw [← List.append_assoc, List.eraseDups_append, List.eraseDups_append, hnothing, hrest,
    List.eraseDups_append]
  simp

theorem eraseDups_map_eraseDups (f : α → β) (l : List α) :
    (l.eraseDups.map f).eraseDups = (l.map f).eraseDups := by
  induction l using List.reverseRecOn with
  | nil => rfl
  | append_singleton l a ih =>
    rw [eraseDups_concat, List.map_append, List.map_singleton, eraseDups_concat]
    by_cases ha : a ∈ l
    · rw [if_pos ha, if_pos (List.mem_map_of_mem ha), ih]
    · have hmem : f a ∈ l.eraseDups.map f ↔ f a ∈ l.map f := by simp
      rw [if_neg ha, List.map_append, List.map_singleton, eraseDups_concat, ih]
      simp only [hmem]

/-- An image occurs no later than what it is the image of. -/
theorem idxOf_map_le (f : α → β) {l : List α} {x : α} (hx : x ∈ l) :
    (l.map f).idxOf (f x) ≤ l.idxOf x := by
  induction l with
  | nil => cases hx
  | cons y l ih =>
    rw [List.map_cons]
    by_cases himage : f y = f x
    · rw [himage, List.idxOf_cons_self]
      exact Nat.zero_le _
    · have hne : y ≠ x := fun heq => himage (congrArg f heq)
      have hle := ih ((List.mem_cons.mp hx).resolve_left (Ne.symm hne))
      rw [List.idxOf_cons_ne _ himage, List.idxOf_cons_ne _ hne]
      omega

/-- First occurrences keep their order. -/
theorem idxOf_le_of_idxOf_eraseDups_le {l : List α} {x y : α} (hx : x ∈ l) (hy : y ∈ l)
    (h : l.eraseDups.idxOf x ≤ l.eraseDups.idxOf y) : l.idxOf x ≤ l.idxOf y := by
  induction l using List.reverseRecOn with
  | nil => cases hx
  | append_singleton l a ih =>
    have hold : ∀ z, z ∈ l → (l ++ [a]).idxOf z = l.idxOf z := fun z hz =>
      List.idxOf_append_of_mem hz
    rw [eraseDups_concat] at h
    by_cases hyl : y ∈ l
    · by_cases hxl : x ∈ l
      · rw [hold x hxl, hold y hyl]
        refine ih hxl hyl ?_
        split at h
        · exact h
        · rwa [List.idxOf_append_of_mem (List.mem_eraseDups.mpr hxl),
            List.idxOf_append_of_mem (List.mem_eraseDups.mpr hyl)] at h
      · -- the last element cannot come before another one
        obtain rfl : x = a := by simpa [hxl] using hx
        have hlt := List.idxOf_lt_length_of_mem (List.mem_eraseDups.mpr hyl)
        rw [if_neg hxl, List.idxOf_append_of_mem (List.mem_eraseDups.mpr hyl),
          List.idxOf_append_of_notMem (by simpa using hxl)] at h
        omega
    · obtain rfl : y = a := by simpa [hyl] using hy
      rw [List.idxOf_append_of_notMem hyl, List.idxOf_cons_self]
      have hlt := List.idxOf_lt_length_of_mem hx
      rw [List.length_append, List.length_singleton] at hlt
      omega

end

/-! ## Unfoldings -/

namespace Scene

variable {K : Type} {s : Scene K} {A : ObjectId → Prop} {rank : ObjectId → Nat}

/-- The visits below an object, the object included, if nothing is shared; cut off at a depth. -/
def unfolding (s : Scene K) : Nat → ObjectId → List ObjectId
  | 0, _ => []
  | n + 1, id => id :: (s.targetsOf id).flatMap (s.unfolding n)

/-- Beyond the rank of an object the depth makes no difference. -/
theorem Ranked.unfolding_eq (h : s.Ranked A rank) (n : Nat) : ∀ id, A id → rank id < n →
    s.unfolding n id = id :: (s.targetsOf id).flatMap (s.unfolding n) := by
  induction n with
  | zero =>
    intro id _ hlt
    exact absurd hlt (Nat.not_lt_zero _)
  | succ n ih =>
    intro id hid hlt
    have hbelow : ∀ t ∈ s.targetsOf id, s.unfolding n t = s.unfolding (n + 1) t := by
      intro t ht
      have hdrop := h.descends hid ht
      exact ih t (h.closed hid ht) (by omega)
    rw [unfolding, List.flatMap_congr hbelow]

/-- What is closed under the references of low objects holds what is below them. -/
theorem unfolding_subset {seen : List ObjectId} {low : Nat} (h : s.Ranked A rank)
    (hclosed : ∀ v ∈ seen, rank v ≤ low → ∀ t, s.Refers v t → t ∈ seen) (n : Nat) :
    ∀ v ∈ seen, A v → rank v ≤ low → s.unfolding n v ⊆ seen := by
  induction n with
  | zero =>
    intro v _ _ _
    exact List.nil_subset _
  | succ n ih =>
    intro v hv hA hlow
    refine List.cons_subset.mpr ⟨hv, fun a ha => ?_⟩
    obtain ⟨t, ht, ha⟩ := List.mem_flatMap.mp ha
    have hdrop := h.descends hA ht
    exact ih t (hclosed v hv hlow t ht) (h.closed hA ht) (by omega) ha

/-! ## The walk -/

/-- What a visited object refers to has been visited, or is visited before anything that is as high
as the object. -/
def Trailing (s : Scene K) (rank : ObjectId → Nat) (work seen : List ObjectId) : Prop :=
  ∀ i w, work[i]? = some w → ∀ v ∈ seen, rank v ≤ rank w → ∀ t, s.Refers v t →
    t ∈ seen ∨ t ∈ work.take i

theorem Trailing.skip {id : ObjectId} {rest seen : List ObjectId}
    (h : s.Trailing rank (id :: rest) seen) (hseen : id ∈ seen) : s.Trailing rank rest seen := by
  intro i w hw v hv hle t ht
  rcases h (i + 1) w (by simpa using hw) v hv hle t ht with ht | ht
  · exact Or.inl ht
  · rw [List.take_succ_cons] at ht
    rcases List.mem_cons.mp ht with rfl | ht
    · exact Or.inl hseen
    · exact Or.inr ht

theorem Trailing.visit {id : ObjectId} {o : Object K} {rest seen : List ObjectId}
    (hranked : s.Ranked A rank) (hid : A id) (hget : s.get? id = some o)
    (h : s.Trailing rank (id :: rest) seen) :
    s.Trailing rank (o.targets ++ rest) (seen ++ [id]) := by
  have hrefers : ∀ t, s.Refers id t ↔ t ∈ o.targets := by
    intro t
    rw [Refers, targetsOf_of_get? hget]
  intro i w hw v hv hle t ht
  rcases Nat.lt_or_ge i o.targets.length with hi | hi
  · -- a reference of the object leads to something lower, so nothing as low is waiting for it
    rw [List.getElem?_append_left hi] at hw
    have hdrop := hranked.descends hid ((hrefers w).mpr (List.mem_of_getElem? hw))
    rcases List.mem_append.mp hv with hv | hv
    · rcases h 0 id rfl v hv (by omega) t ht with ht | ht
      · exact Or.inl (List.mem_append_left _ ht)
      · cases ht
    · rw [List.mem_singleton.mp hv] at hle
      omega
  -- a reference of anything else was waiting before, and one place further on
  · rw [List.getElem?_append_right hi] at hw
    rw [List.take_append, List.take_of_length_le hi]
    rcases List.mem_append.mp hv with hv | hv
    · rcases h (i - o.targets.length + 1) w (by simpa using hw) v hv hle t ht with ht | ht
      · exact Or.inl (List.mem_append_left _ ht)
      · rw [List.take_succ_cons] at ht
        rcases List.mem_cons.mp ht with rfl | ht
        · exact Or.inl (List.mem_append_right _ List.mem_cons_self)
        · exact Or.inr (List.mem_append_right _ ht)
    · rw [List.mem_singleton.mp hv, hrefers] at ht
      exact Or.inr (List.mem_append_left _ ht)

/-- **A walk lists first visits**: those of the visited objects, then those of the unfoldings of
what is still to be visited. -/
theorem walk_eq_eraseDups (h : s.Ranked A rank) {n : Nat} (hn : ∀ a, A a → rank a < n)
    (work seen : List ObjectId) (hwork : ∀ a ∈ work, A a) (hseen : ∀ a ∈ seen, A a)
    (hfirst : seen.eraseDups = seen) (htrailing : s.Trailing rank work seen) :
    s.walk work seen = (seen ++ work.flatMap (s.unfolding n)).eraseDups := by
  -- the invariant: what is visited again has left behind everything below it
  fun_induction walk s work seen with
  | case1 seen => simp [hfirst]
  -- an object seen before adds nothing, with all that is below it
  | case2 seen id rest hmem ih =>
    have hid := hwork id List.mem_cons_self
    rw [ih (fun a ha => hwork a (List.mem_cons_of_mem _ ha)) hseen hfirst (htrailing.skip hmem),
      List.flatMap_cons, eraseDups_append_of_subset]
    refine unfolding_subset h (fun v hv hle t ht => ?_) n id hmem hid (Nat.le_refl _)
    simpa using htrailing 0 id rfl v hv hle t ht
  | case3 seen id rest _ hget ih =>
    obtain ⟨o, ho⟩ := h.object (hwork id List.mem_cons_self)
    rw [hget] at ho
    cases ho
  -- a new object adds itself and then the unfoldings of its targets
  | case4 seen id rest hnew o hget ih =>
    have hid := hwork id List.mem_cons_self
    rw [ih ?_ ?_ ?_ (htrailing.visit h hid hget), List.flatMap_cons,
      h.unfolding_eq n id hid (hn id hid), targetsOf_of_get? hget, List.flatMap_append]
    · simp only [List.append_assoc, List.cons_append, List.nil_append]
    · intro a ha
      rcases List.mem_append.mp ha with ha | ha
      · exact h.closed hid (refers_of_get? hget ha)
      · exact hwork a (List.mem_cons_of_mem _ ha)
    · intro a ha
      rcases List.mem_append.mp ha with ha | ha
      · exact hseen a ha
      · rwa [List.mem_singleton.mp ha]
    · rw [eraseDups_concat, if_neg hnew, hfirst]

/-- **The reachable objects are listed in the order in which the unfolding of the root first comes
to them.** -/
theorem Ranked.reachable_eq_eraseDups (h : s.Ranked A rank) (hroot : A s.root) {n : Nat}
    (hn : ∀ a, A a → rank a < n) : s.reachable = (s.unfolding n s.root).eraseDups := by
  rw [reachable, walk_eq_eraseDups h hn [s.root] [] ?_ (by simp) rfl (fun i w _ v hv => ?_)]
  · simp
  · intro a ha
    rwa [List.mem_singleton.mp ha]
  · cases hv

end Scene

/-! ## Indexes -/

namespace Index

variable {K : Type} {s : Scene K} {ix : Index}

/-- The objects that references are still to be followed to. -/
def ahead : List Task → List ObjectId
  | [] => []
  | .follow _ _ r :: rest => r.target :: ahead rest
  | .leave _ :: rest => ahead rest

theorem ahead_visit (o : Object K) (id : ObjectId) (p : Nat) (rest : List Task) :
    ahead (Task.visit o id p ++ rest) = o.targets ++ ahead rest := by
  have hfollow : ∀ rs : List Reference,
      ahead (rs.map (Task.follow id p) ++ (.leave p :: rest)) =
        rs.map (·.target) ++ ahead rest := by
    intro rs
    induction rs with
    | nil => rfl
    | cons r rs ih => exact congrArg (r.target :: ·) ih
  simpa [Task.visit, Object.targets] using hfollow o.references

/-- Indexing walks like the walk from the root. -/
theorem ids_of_walk {tasks : List Task} {out : Index} (h : walk s tasks ix = .ok out) :
    out.ids = s.walk (ahead tasks) ix.ids := by
  fun_induction walk s tasks ix with
  | case1 ix =>
    obtain rfl := Except.ok.inj h
    rw [ahead, Scene.walk]
  | case2 ix p rest ih => exact ih h
  | case3 ix holder position r rest p hpos hp ih =>
    have hseen : r.target ∈ ix.ids := List.mem_of_getElem? (position?_eq_some hpos)
    rw [ih h, ids_refer, ahead, Scene.walk]
    simp only [hseen, dite_true]
  | case4 => cases h
  | case5 => cases h
  | case6 => cases h
  | case7 ix holder position r rest hpos o hget hframes ih =>
    have hnew := not_mem_ids_of_position?_eq_none hpos
    rw [ih h, ids_enter, ahead_visit, ahead, Scene.walk]
    simp only [hnew, dite_false]
    split
    · rename_i hnone
      rw [hget] at hnone
      cases hnone
    · rename_i o' hget'
      rw [Option.some.inj (hget.symm.trans hget')]

/-- **An index lists the reachable objects in their order.** -/
theorem ids_eq_reachable (h : build s = .ok ix) : ix.ids = s.reachable := by
  rw [build] at h
  cases hget : s.get? s.root with
  | none =>
    rw [hget] at h
    cases h
  | some o =>
    rw [hget] at h
    obtain ⟨-, -, hwalk⟩ := exists_of_bind_ok h
    have hvisit := ahead_visit o s.root 0 []
    rw [List.append_nil] at hvisit
    rw [ids_of_walk hwalk, hvisit, Scene.reachable, Scene.walk]
    simp only [List.not_mem_nil, dite_false]
    split
    · rename_i hnone
      rw [hget] at hnone
      cases hnone
    · rename_i o' hget'
      rw [Option.some.inj (hget.symm.trans hget')]
      rfl

end Index
end Diorama
