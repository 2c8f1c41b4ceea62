/-
  Comparing two runs that may fail.

  Two runs agree if both succeed with related results or both fail.  Which error is reported does
  not matter: the same reference that leads nowhere is reported under the ids of the scene it stands
  in.

  Agreement is kept by sequencing (`Agree.bind`) and by going through a list (`Agree.mapM`), so that
  two runs of the same shape are compared step by step.
-/
import Mathlib.Data.List.Forall2

namespace Diorama

/-- Both runs succeed with related results, or both fail. -/
inductive Agree {ε α β : Type} (R : α → β → Prop) : Except ε α → Except ε β → Prop
  | ok {a : α} {b : β} : R a b → Agree R (.ok a) (.ok b)
  | error (e e' : ε) : Agree R (.error e) (.error e')

namespace Agree

variable {ε α β γ δ : Type} {R : α → β → Prop} {S : γ → δ → Prop}

theorem refl {R : α → α → Prop} (hR : ∀ a, R a a) (x : Except ε α) : Agree R x x := by
  cases x with
  | ok a => exact .ok (hR a)
  | error e => exact .error e e

theorem mono {R' : α → β → Prop} {x : Except ε α} {y : Except ε β} (h : Agree R x y)
    (hR : ∀ a b, R a b → R' a b) : Agree R' x y := by
  cases h with
  | ok hab => exact .ok (hR _ _ hab)
  | error e e' => exact .error e e'

theorem symm {R' : β → α → Prop} {x : Except ε α} {y : Except ε β} (h : Agree R x y)
    (hR : ∀ a b, R a b → R' b a) : Agree R' y x := by
  cases h with
  | ok hab => exact .ok (hR _ _ hab)
  | error e e' => exact .error e' e

theorem trans {R' : β → γ → Prop} {T : α → γ → Prop} {x : Except ε α} {y : Except ε β}
    {z : Except ε γ} (hxy : Agree R x y) (hyz : Agree R' y z)
    (hT : ∀ a b c, R a b → R' b c → T a c) : Agree T x z := by
  cases hxy with
  | ok hab =>
    cases hyz with
    | ok hbc => exact .ok (hT _ _ _ hab hbc)
  | error e e' =>
    cases hyz with
    | error _ e'' => exact .error e e''

/-- What holds of every result of the first run may be added. -/
theorem and_left {P : α → Prop} {x : Except ε α} {y : Except ε β} (h : Agree R x y)
    (hP : ∀ a, x = .ok a → P a) : Agree (fun a b => P a ∧ R a b) x y := by
  cases h with
  | ok hab => exact .ok ⟨hP _ rfl, hab⟩
  | error e e' => exact .error e e'

/-- Runs that agree go on to runs that agree. -/
theorem bind {x : Except ε α} {y : Except ε β} {f : α → Except ε γ} {g : β → Except ε δ}
    (h : Agree R x y) (hfg : ∀ a b, R a b → Agree S (f a) (g b)) :
    Agree S (x >>= f) (y >>= g) := by
  cases h with
  | ok hab => exact hfg _ _ hab
  | error e e' => exact .error e e'

/-- Runs with equal results are those that succeed with the same results. -/
theorem eq_iff {x y : Except ε α} : Agree Eq x y ↔ ∀ a, x = .ok a ↔ y = .ok a := by
  constructor
  · intro h a
    cases h with
    | ok hab => rw [hab]
    | error e e' => simp
  · intro h
    cases x with
    | ok a =>
      rw [(h a).mp rfl]
      exact .ok rfl
    | error e =>
      cases y with
      | ok b => exact absurd ((h b).mpr rfl) (by simp)
      | error e' => exact .error e e'

/-- Runs over two lists agree if they agree entry by entry. -/
theorem mapM {P : α → β → Prop} {f : α → Except ε γ} {g : β → Except ε δ} {as : List α}
    {bs : List β} (h : List.Forall₂ P as bs) (hfg : ∀ a b, P a b → Agree S (f a) (g b)) :
    Agree (List.Forall₂ S) (as.mapM f) (bs.mapM g) := by
  induction h with
  | nil => exact .ok .nil
  | cons hab _ ih =>
    rw [List.mapM_cons, List.mapM_cons]
    refine bind (hfg _ _ hab) fun c d hcd => ?_
    refine bind ih fun cs ds hcs => ?_
    exact .ok (.cons hcd hcs)

end Agree

/-! ## Runs that succeed -/

section

variable {ε α β : Type}

/-- What is computed in steps is computed step by step. -/
theorem exists_of_bind_ok {x : Except ε α} {f : α → Except ε β} {b : β} (h : x >>= f = .ok b) :
    ∃ a, x = .ok a ∧ f a = .ok b := by
  cases x with
  | error e => cases h
  | ok a => exact ⟨a, rfl, h⟩

/-- A run over a list succeeds entry by entry. -/
theorem forall₂_of_mapM_ok {f : α → Except ε β} {as : List α} {bs : List β}
    (h : as.mapM f = .ok bs) : List.Forall₂ (fun a b => f a = .ok b) as bs := by
  induction as generalizing bs with
  | nil =>
    cases h
    exact .nil
  | cons a as ih =>
    rw [List.mapM_cons] at h
    obtain ⟨b, hb, h⟩ := exists_of_bind_ok h
    obtain ⟨rest, hrest, h⟩ := exists_of_bind_ok h
    cases h
    exact .cons hb (ih hrest)

/-- A run over a list that succeeds at every entry. -/
theorem mapM_eq_ok_of_forall₂ {f : α → Except ε β} {as : List α} {bs : List β}
    (h : List.Forall₂ (fun a b => f a = .ok b) as bs) : as.mapM f = .ok bs := by
  induction h with
  | nil => rfl
  | cons hab _ ih =>
    rw [List.mapM_cons, hab, ih]
    rfl

/-- Every result comes from one of the arguments. -/
theorem exists_of_mem_of_mapM_ok {f : α → Except ε β} {as : List α} {bs : List β}
    (h : as.mapM f = .ok bs) {b : β} (hb : b ∈ bs) : ∃ a ∈ as, f a = .ok b := by
  obtain ⟨hlen, hall⟩ := List.forall₂_iff_get.mp (forall₂_of_mapM_ok h)
  obtain ⟨k, hk, rfl⟩ := List.getElem_of_mem hb
  exact ⟨_, List.getElem_mem (hlen ▸ hk), hall k (hlen ▸ hk) hk⟩

/-- Every argument gives one of the results. -/
theorem exists_mem_of_mapM_ok {f : α → Except ε β} {as : List α} {bs : List β}
    (h : as.mapM f = .ok bs) {a : α} (ha : a ∈ as) : ∃ b ∈ bs, f a = .ok b := by
  obtain ⟨hlen, hall⟩ := List.forall₂_iff_get.mp (forall₂_of_mapM_ok h)
  obtain ⟨k, hk, rfl⟩ := List.getElem_of_mem ha
  exact ⟨_, List.getElem_mem (hlen ▸ hk), hall k hk (hlen ▸ hk)⟩

/-- Runs over a list that are the same at every entry. -/
theorem mapM_congr {f g : α → Except ε β} {as : List α} (h : ∀ a ∈ as, f a = g a) :
    as.mapM f = as.mapM g := by
  induction as with
  | nil => rfl
  | cons a as ih =>
    obtain ⟨hhead, htail⟩ := List.forall_mem_cons.mp h
    rw [List.mapM_cons, List.mapM_cons, hhead, ih htail]

/-- A run over a list whose results are read off those of another run. -/
theorem mapM_eq_map {γ : Type} {f : α → Except ε γ} {g : α → Except ε β} {read : β → γ}
    (h : ∀ a, f a = (g a).map read) (as : List α) :
    as.mapM f = (as.mapM g).map (List.map read) := by
  induction as with
  | nil => rfl
  | cons a as ih =>
    rw [List.mapM_cons, List.mapM_cons, h a, ih]
    cases g a with
    | error e => rfl
    | ok b => cases as.mapM g <;> rfl

end

/-- Entries that are there one by one make up a list. -/
theorem exists_forall₂ {α β : Type} {P : α → β → Prop} {as : List α} (h : ∀ a ∈ as, ∃ b, P a b) :
    ∃ bs, List.Forall₂ P as bs := by
  induction as with
  | nil => exact ⟨[], .nil⟩
  | cons a as ih =>
    obtain ⟨b, hb⟩ := h a List.mem_cons_self
    obtain ⟨bs, hbs⟩ := ih fun a' ha' => h a' (List.mem_cons_of_mem a ha')
    exact ⟨b :: bs, .cons hb hbs⟩

/-- A list and its image, entry by entry. -/
theorem forall₂_map_right {α β : Type} {P : α → β → Prop} {f : α → β} {as : List α}
    (h : ∀ a ∈ as, P a (f a)) : List.Forall₂ P as (as.map f) := by
  rw [List.forall₂_map_right_iff, List.forall₂_same]
  exact h

end Diorama
