/-
  Names tell objects apart.

  Every reachable object has a name, no two have the same, and every name begins with a capital
  letter.  A field is called like its method but for the first letter, which it has small, so fields
  are told apart as well.
-/
import Mathlib
import Diorama.Code.Instantiator
import Diorama.Proofs.Reachability

namespace Diorama

/-! ## Capital letters -/

/-- Whether a name begins with a capital letter. -/
def IsCapitalized (name : String) : Prop := name.toList.head?.any Char.isUpper = true

/-- Only the first character matters. -/
theorem IsCapitalized.append {name : String} (h : IsCapitalized name) (rest : String) :
    IsCapitalized (name ++ rest) := by
  unfold IsCapitalized at h ⊢
  rw [String.toList_append]
  cases hname : name.toList with
  | nil =>
    rw [hname] at h
    cases h
  | cons c cs =>
    rw [hname] at h
    exact h

/-- Labels of kinds begin with a capital. -/
theorem isCapitalized_label (k : Kind) : IsCapitalized k.label := by
  cases k <;> exact rfl

theorem ValueKind.isCapitalized_name (k : ValueKind) : IsCapitalized k.name := by
  cases k <;> exact rfl

/-- The base of a name begins with a capital, since it begins with a label or a type. -/
theorem Object.isCapitalized_baseName (o : Object Float32) : IsCapitalized o.baseName := by
  unfold Object.baseName
  split
  · have hbrush : IsCapitalized "ColorBrush_" := rfl
    exact hbrush.append _
  · rename_i a _
    unfold KeyFrameAnimation.baseName
    split
    · exact (((a.kind.isCapitalized_name.append _).append _).append _).append _
    · exact a.kind.isCapitalized_name.append _
  · exact isCapitalized_label _

/-- Capital letters are told apart by their small ones. -/
theorem toLower_injective {c d : Char} (hc : c.isUpper = true) (hd : d.isUpper = true)
    (h : c.toLower = d.toLower) : c = d := by
  have hc' := of_decide_eq_true hc
  have hd' := of_decide_eq_true hd
  rw [Char.toLower, Char.toLower, dif_pos hc', dif_pos hd'] at h
  have hval := congrArg Char.val h
  exact Char.ext (UInt32.add_left_inj _ |>.mp hval)

/-- Names that begin with a capital letter have different fields. -/
theorem fieldName_injective {name name' : String} (h : IsCapitalized name)
    (h' : IsCapitalized name') (heq : fieldName name = fieldName name') : name = name' := by
  unfold IsCapitalized at h h'
  cases hname : name.toList with
  | nil =>
    rw [hname] at h
    cases h
  | cons c cs =>
    cases hname' : name'.toList with
    | nil =>
      rw [hname'] at h'
      cases h'
    | cons d ds =>
      rw [hname] at h
      rw [hname'] at h'
      simp only [fieldName, hname, hname', String.ofList_inj, List.cons.injEq, true_and] at heq
      obtain rfl := toLower_injective h h' heq.1
      refine String.toList_inj.mp ?_
      rw [hname, hname', heq.2]

namespace Names

/-! ## Names are given once -/

/-- A fresh name is not in use: marks are added until it is not. -/
theorem fresh_not_mem (used : List String) (name : String) : fresh used name ∉ used := by
  fun_induction fresh used name with
  | case1 name _ ih => exact ih
  | case2 name hnew => exact hnew

/-- What is kept when `_x` is added holds of a fresh name. -/
theorem fresh_induction {P : String → Prop} (hmarked : ∀ name, P name → P (name ++ "_x"))
    {used : List String} {name : String} (h : P name) : P (fresh used name) := by
  fun_induction fresh used name with
  | case1 name _ ih => exact ih (hmarked name h)
  | case2 name _ => exact h

/-- A number goes to the end of a name. -/
theorem isCapitalized_numbered {base : String} (h : IsCapitalized base) (size index : Nat) :
    IsCapitalized (numbered base size index) := by
  unfold numbered
  split
  · exact ((h.append _).append _).append _
  · exact h

variable {bases : List String}

/-- Every object gets one name, in order. -/
theorem keys_assign (based : List (ObjectId × String)) (earlier used : List String) :
    (assign bases based earlier used).map Prod.fst = based.map Prod.fst := by
  induction based generalizing earlier used with
  | nil => rfl
  | cons e rest ih => exact congrArg (e.1 :: ·) (ih _ _)

/-- A name is given to one object, and not if it was used before. -/
theorem nodup_assign (based : List (ObjectId × String)) (earlier used : List String) :
    ((assign bases based earlier used).map Prod.snd).Nodup ∧
      ∀ name ∈ (assign bases based earlier used).map Prod.snd, name ∉ used := by
  induction based generalizing earlier used with
  | nil => exact ⟨List.nodup_nil, by simp [assign]⟩
  | cons e rest ih =>
    obtain ⟨id, base⟩ := e
    obtain ⟨hnodup, hnew⟩ := ih (earlier ++ [base])
      (used ++ [fresh used (numbered base (bases.count base) (earlier.count base))])
    rw [assign, List.map_cons]
    refine ⟨List.nodup_cons.mpr ⟨fun hmem => hnew _ hmem (by simp), hnodup⟩, ?_⟩
    intro name hname
    rcases List.mem_cons.mp hname with rfl | hname
    · exact fresh_not_mem _ _
    · exact fun hused => hnew name hname (List.mem_append_left _ hused)

/-- What is kept by numbering and by adding `_x` passes from base names to names. -/
theorem assign_induction {P : String → Prop}
    (hnumbered : ∀ base size index, P base → P (numbered base size index))
    (hmarked : ∀ name, P name → P (name ++ "_x")) {based : List (ObjectId × String)}
    (h : ∀ e ∈ based, P e.2) (earlier used : List String) :
    ∀ e ∈ assign bases based earlier used, P e.2 := by
  induction based generalizing earlier used with
  | nil => simp [assign]
  | cons e rest ih =>
    intro d hd
    rcases List.mem_cons.mp hd with rfl | hd
    · exact fresh_induction hmarked (hnumbered _ _ _ (h e List.mem_cons_self))
    · exact ih (fun e he => h e (List.mem_cons_of_mem _ he)) _ _ d hd

/-! ## The names of a scene -/

variable {s : Scene Float32} {a b : ObjectId} {name : String}

/-- A name that is found is in the list. -/
theorem mem_entries_of_get? {names : Names} (h : names.get? a = some name) :
    (a, name) ∈ names.entries := by
  obtain ⟨before, after, heq, -⟩ := List.lookup_eq_some_iff.mp h
  rw [heq]
  exact List.mem_append_right _ List.mem_cons_self

/-- Names are given to the reachable objects and to no others. -/
theorem keys_ofScene (s : Scene Float32) : (ofScene s).entries.map Prod.fst = s.reachable := by
  rw [ofScene, keys_assign, List.map_map]
  exact List.map_id _

/-- **Every reachable object has a name**, and nothing else has. -/
theorem exists_name_iff : (∃ name, (ofScene s).get? a = some name) ↔ a ∈ s.reachable := by
  rw [← keys_ofScene s, ← Option.isSome_iff_exists, get?, List.lookup_isSome_iff]
  simp

/-- **No two objects have the same name.** -/
theorem ofScene_injective (ha : (ofScene s).get? a = some name)
    (hb : (ofScene s).get? b = some name) : a = b := by
  have hnodup : ((ofScene s).entries.map Prod.snd).Nodup := (nodup_assign _ _ _).1
  have hinj := List.inj_on_of_nodup_map hnodup (mem_entries_of_get? ha) (mem_entries_of_get? hb) rfl
  exact congrArg Prod.fst hinj

/-- **What holds of the bases and is kept by numbers and marks holds of every name.** -/
theorem ofScene_induction {P : String → Prop} (hbase : ∀ o : Object Float32, P o.baseName)
    (hnumbered : ∀ base size index, P base → P (numbered base size index))
    (hmarked : ∀ name, P name → P (name ++ "_x")) (h : (ofScene s).get? a = some name) :
    P name := by
  refine assign_induction hnumbered hmarked ?_ _ _ _ (mem_entries_of_get? h)
  intro e he
  obtain ⟨id, hid, rfl⟩ := List.mem_map.mp he
  obtain ⟨o, ho⟩ := Scene.get?_of_mem_reachable hid
  simp only [ho, Option.elim_some]
  exact hbase o

/-- Every name begins with a capital. -/
theorem isCapitalized_ofScene (h : (ofScene s).get? a = some name) : IsCapitalized name :=
  ofScene_induction Object.isCapitalized_baseName
    (fun _ size index hbase => isCapitalized_numbered hbase size index)
    (fun _ hname => hname.append _) h

end Names
end Diorama
