/-
  What a walk from the root finds.

  `Scene.Refers` is a single reference and `Scene.Reaches` a chain of them.  The walk of
  `Scene.reachable` keeps one invariant: what a visited object refers to has been visited or is
  still to be visited.  Once nothing is left to visit, the visited objects are closed under
  references (`walk_closed`), and nothing else was ever added (`walk_induction`).  So `reachable`
  lists what the root reaches, each object once.

  A slot is counted once for every reachable object that holds it, so an object whose count is one
  is held by a single object (`holder_unique`).
-/
import Mathlib.Logic.Relation
import Mathlib.Data.List.Nodup
import Diorama.Scene.Traversal

namespace Diorama.Scene

variable {K : Type} {s : Scene K}

/-! ## References -/

/-- The first object holds a reference to the second. -/
def Refers (s : Scene K) (a b : ObjectId) : Prop := b ∈ s.targetsOf a

/-- A chain of references leads from the first object to the second. -/
def Reaches (s : Scene K) : ObjectId → ObjectId → Prop := Relation.ReflTransGen s.Refers

/-- What an object refers to is listed by the object. -/
theorem targetsOf_of_get? {id : ObjectId} {o : Object K} (h : s.get? id = some o) :
    s.targetsOf id = o.targets := by
  simp [targetsOf, h]

/-- An object refers to its targets. -/
theorem refers_of_get? {a b : ObjectId} {o : Object K} (h : s.get? a = some o)
    (hb : b ∈ o.targets) : s.Refers a b := by
  rw [Refers, targetsOf_of_get? h]
  exact hb

/-- Only objects that are there refer to anything. -/
theorem exists_get?_of_refers {a b : ObjectId} (h : s.Refers a b) :
    ∃ o, s.get? a = some o ∧ b ∈ o.targets := by
  unfold Refers targetsOf at h
  cases hget : s.get? a with
  | none => simp [hget] at h
  | some o => exact ⟨o, rfl, by simpa [hget] using h⟩

/-! ## The walk -/

/-- What the work list and references lead to is all that a walk adds. -/
theorem walk_induction {P : ObjectId → Prop} (hstep : ∀ a b, P a → s.Refers a b → P b)
    (work seen : List ObjectId) (hwork : ∀ id ∈ work, P id) (hseen : ∀ id ∈ seen, P id) :
    ∀ id ∈ s.walk work seen, P id := by
  fun_induction walk s work seen with
  | case1 seen => exact hseen
  | case2 seen id rest _ ih => exact ih (fun x hx => hwork x (by simp [hx])) hseen
  | case3 seen id rest _ _ ih => exact ih (fun x hx => hwork x (by simp [hx])) hseen
  | case4 seen id rest _ o hget ih =>
    have hid : P id := hwork id (by simp)
    refine ih (fun x hx => ?_) (fun x hx => ?_)
    · rcases List.mem_append.mp hx with h | h
      · exact hstep id x hid (refers_of_get? hget h)
      · exact hwork x (by simp [h])
    · rcases List.mem_append.mp hx with h | h
      · exact hseen x h
      · obtain rfl : x = id := by simpa using h
        exact hid

/-- A walk only adds objects of the arena. -/
theorem get?_of_mem_walk (work seen : List ObjectId)
    (hseen : ∀ id ∈ seen, ∃ o, s.get? id = some o) :
    ∀ id ∈ s.walk work seen, ∃ o, s.get? id = some o := by
  fun_induction walk s work seen with
  | case1 seen => exact hseen
  | case2 seen id rest _ ih => exact ih hseen
  | case3 seen id rest _ _ ih => exact ih hseen
  | case4 seen id rest _ o hget ih =>
    refine ih (fun x hx => ?_)
    rcases List.mem_append.mp hx with h | h
    · exact hseen x h
    · obtain rfl : x = id := by simpa using h
      exact ⟨o, hget⟩

/-- No object is walked over twice. -/
theorem walk_nodup (work seen : List ObjectId) (hseen : seen.Nodup) :
    (s.walk work seen).Nodup := by
  fun_induction walk s work seen with
  | case1 seen => exact hseen
  | case2 seen id rest _ ih => exact ih hseen
  | case3 seen id rest _ _ ih => exact ih hseen
  | case4 seen id rest hnew o hget ih =>
    refine ih (List.nodup_append.mpr ⟨hseen, by simp, ?_⟩)
    rintro a ha b hb rfl
    obtain rfl : a = id := by simpa using hb
    exact hnew ha

/-- **The walk is complete.**  If what the visited objects refer to is visited or still to be
visited, then the result holds the work list and is closed under references. -/
theorem walk_closed (work seen : List ObjectId)
    (hinv : ∀ a ∈ seen, ∀ b o, s.Refers a b → s.get? b = some o → b ∈ seen ∨ b ∈ work) :
    (∀ b o, b ∈ seen ∨ b ∈ work → s.get? b = some o → b ∈ s.walk work seen) ∧
      ∀ a ∈ s.walk work seen, ∀ b o, s.Refers a b → s.get? b = some o → b ∈ s.walk work seen := by
  fun_induction walk s work seen with
  | case1 seen =>
    refine ⟨fun b o hb _ => by simpa using hb, fun a ha b o hab hb => ?_⟩
    simpa using hinv a ha b o hab hb
  | case2 seen id rest hmem ih =>
    -- the head has been visited, so leaving it out of the work list loses nothing
    have hshort : ∀ b, b ∈ seen ∨ b ∈ id :: rest → b ∈ seen ∨ b ∈ rest := by
      intro b hb
      rcases hb with h | h
      · exact Or.inl h
      · rcases List.mem_cons.mp h with rfl | h
        · exact Or.inl hmem
        · exact Or.inr h
    obtain ⟨hwork, hclosed⟩ := ih (fun a ha b o hab hb => hshort b (hinv a ha b o hab hb))
    exact ⟨fun b o hb => hwork b o (hshort b hb), hclosed⟩
  | case3 seen id rest _ hget ih =>
    -- the head is no object of the arena
    have hshort : ∀ b o, s.get? b = some o → b ∈ seen ∨ b ∈ id :: rest → b ∈ seen ∨ b ∈ rest := by
      intro b o hb hmem
      rcases hmem with h | h
      · exact Or.inl h
      · rcases List.mem_cons.mp h with rfl | h
        · rw [hget] at hb
          nomatch hb
        · exact Or.inr h
    obtain ⟨hwork, hclosed⟩ :=
      ih (fun a ha b o hab hb => hshort b o hb (hinv a ha b o hab hb))
    exact ⟨fun b o hb hget => hwork b o (hshort b o hget hb) hget, hclosed⟩
  | case4 seen id rest _ o hget ih =>
    -- the head moves to the visited objects and leaves its references in the work list
    have hmove : ∀ b, b ∈ seen ∨ b ∈ id :: rest → b ∈ seen ++ [id] ∨ b ∈ o.targets ++ rest := by
      intro b hb
      rcases hb with h | h
      · exact Or.inl (by simp [h])
      · rcases List.mem_cons.mp h with rfl | h
        · exact Or.inl (by simp)
        · exact Or.inr (by simp [h])
    have hinv' : ∀ a ∈ seen ++ [id], ∀ b o', s.Refers a b → s.get? b = some o' →
        b ∈ seen ++ [id] ∨ b ∈ o.targets ++ rest := by
      intro a ha b o' hab hb
      rcases List.mem_append.mp ha with h | h
      · exact hmove b (hinv a h b o' hab hb)
      · obtain rfl : a = id := by simpa using h
        rw [Refers, targetsOf_of_get? hget] at hab
        exact Or.inr (by simp [hab])
    obtain ⟨hwork, hclosed⟩ := ih hinv'
    exact ⟨fun b o' hb => hwork b o' (hmove b hb), hclosed⟩

/-! ## Reachable objects -/

theorem reachable_nodup (s : Scene K) : s.reachable.Nodup := walk_nodup _ _ List.nodup_nil

/-- What the walk meets, the root reaches. -/
theorem reaches_of_mem_reachable {id : ObjectId} (h : id ∈ s.reachable) :
    s.Reaches s.root id := by
  refine walk_induction (P := s.Reaches s.root) (fun a b ha hab => ha.tail hab) [s.root] []
    (fun x hx => ?_) (by simp) id h
  obtain rfl : x = s.root := by simpa using hx
  exact Relation.ReflTransGen.refl

/-- What the walk meets is there. -/
theorem get?_of_mem_reachable {id : ObjectId} (h : id ∈ s.reachable) :
    ∃ o, s.get? id = some o :=
  get?_of_mem_walk [s.root] [] (by simp) id h

/-- The walk begins with the root. -/
theorem root_mem_reachable {o : Object K} (h : s.get? s.root = some o) :
    s.root ∈ s.reachable :=
  (walk_closed [s.root] [] (by simp)).1 s.root o (by simp) h

/-- What a reachable object refers to is reachable, if it is an object at all. -/
theorem mem_reachable_of_refers {a b : ObjectId} {o : Object K} (ha : a ∈ s.reachable)
    (hab : s.Refers a b) (hb : s.get? b = some o) : b ∈ s.reachable :=
  (walk_closed [s.root] [] (by simp)).2 a ha b o hab hb

/-- Nothing new is reachable if every reference was there before, or leads where a chain of two
led. -/
theorem mem_reachable_of_shortcuts {s' : Scene K} (hroot : s'.root = s.root)
    (hobject : ∀ id o', s'.get? id = some o' → ∃ o, s.get? id = some o)
    (hrefers : ∀ a b, s'.Refers a b → s.Refers a b ∨ ∃ c, s.Refers a c ∧ s.Refers c b)
    {id : ObjectId} (h : id ∈ s'.reachable) : id ∈ s.reachable := by
  have hstep : ∀ a b, (∀ o, s.get? a = some o → a ∈ s.reachable) → s'.Refers a b →
      ∀ o, s.get? b = some o → b ∈ s.reachable := by
    intro a b ha hab o ho
    obtain ⟨p', hp', -⟩ := exists_get?_of_refers hab
    obtain ⟨p, hp⟩ := hobject a p' hp'
    have hreach := ha p hp
    rcases hrefers a b hab with hold | ⟨c, hac, hcb⟩
    · exact mem_reachable_of_refers hreach hold ho
    · obtain ⟨q, hq, -⟩ := exists_get?_of_refers hcb
      exact mem_reachable_of_refers (mem_reachable_of_refers hreach hac hq) hcb ho
  obtain ⟨o', ho'⟩ := get?_of_mem_reachable h
  obtain ⟨o, ho⟩ := hobject id o' ho'
  refine walk_induction hstep [s'.root] [] (fun x hx p hp => ?_) (by simp) id h o ho
  obtain rfl : x = s.root := (List.mem_singleton.mp hx).trans hroot
  exact root_mem_reachable hp

/-! ## Counting slots -/

/-- An object that one slot refers to is held by one object. -/
theorem holder_unique {a b c : ObjectId} (hcount : s.slotTargets.count c = 1)
    (ha : a ∈ s.reachable) (hb : b ∈ s.reachable) (hac : s.Refers a c) (hbc : s.Refers b c) :
    a = b := by
  by_contra hne
  -- two holders would put the object into the list of slots twice
  obtain ⟨l, r, hlr⟩ := List.append_of_mem ha
  have hcl : s.slotTargets.count c =
      (l.flatMap s.targetsOf).count c +
        ((s.targetsOf a).count c + (r.flatMap s.targetsOf).count c) := by
    simp [slotTargets, hlr]
  have hca : 0 < (s.targetsOf a).count c := List.count_pos_iff.mpr hac
  have hside : b ∈ l ∨ b ∈ r := by
    rw [hlr] at hb
    simpa [Ne.symm hne] using hb
  have hcb : 0 < (l.flatMap s.targetsOf).count c + (r.flatMap s.targetsOf).count c := by
    rcases hside with h | h
    · have := List.count_pos_iff.mpr (List.mem_flatMap.mpr ⟨b, h, hbc⟩)
      omega
    · have := List.count_pos_iff.mpr (List.mem_flatMap.mpr ⟨b, h, hbc⟩)
      omega
  omega

/-- An object that one slot refers to stands once among the references of its holder. -/
theorem count_targetsOf_le {a c : ObjectId} (ha : a ∈ s.reachable) :
    (s.targetsOf a).count c ≤ s.slotTargets.count c := by
  obtain ⟨l, r, hlr⟩ := List.append_of_mem ha
  simp [slotTargets, hlr]
  omega

end Diorama.Scene
