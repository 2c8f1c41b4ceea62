/-
  Which name an object gets.

  An object whose base name nobody shares is called by it, and objects that share one are numbered
  in the order of the walk, with as many digits as the last of them needs.  These are the names an
  object is meant to have (`Names.intended`).  `_x` is added only to a name that is taken, so all
  names are as intended if the intended names differ from each other (`assign_intended`).

  They do differ in a scene with at most ten million reachable objects.  Two objects with the same
  base name have different numbers; two base names with numbers behind them are told apart by what
  stands before the number; and a number in such a scene has at most seven digits, so a base name
  with a number is no other base name (`IsBase.ne_numbered`).
-/
import Mathlib
import Diorama.Proofs.BaseNames
import Diorama.Proofs.DistinctNames

namespace Diorama

/-! ## Numerals -/

/-- A number in decimal digits, with zeros in front up to a width. -/
structure IsNumeral (width value : Nat) (text : String) : Prop where
  length : text.length = width
  digits : ∀ c ∈ text.toList, c.isDigit = true
  value : Nat.ofDigitChars 10 text.toList 0 = value

namespace Names

/-- The digits that tell an object from the others of its base name. -/
def numeral (size index : Nat) : String :=
  String.ofList (List.replicate ((size - 1).repr.length - index.repr.length) '0') ++ index.repr

/-- With namesakes, a name has an underscore and a number behind it. -/
theorem numbered_eq {size : Nat} (h : 1 < size) (base : String) (index : Nat) :
    numbered base size index = base ++ "_" ++ numeral size index := by
  rw [numbered, if_pos h, numeral, String.append_assoc]

theorem toList_numbered {size : Nat} (h : 1 < size) (base : String) (index : Nat) :
    (numbered base size index).toList = base.toList ++ '_' :: (numeral size index).toList := by
  rw [numbered_eq h, String.toList_append, String.toList_append, List.append_assoc]
  rfl

/-- Without namesakes, a name is its base. -/
theorem numbered_one (base : String) (index : Nat) : numbered base 1 index = base := rfl

/-- A number is filled up with zeros to the length of the greatest one. -/
theorem toList_numeral (size index : Nat) : (numeral size index).toList =
    List.replicate ((size - 1).repr.length - index.repr.length) '0' ++ Nat.toDigits 10 index := by
  rw [numeral, String.toList_append, String.toList_ofList, Nat.toList_repr]

/-- A number has nothing but digits. -/
theorem isDigit_numeral (size index : Nat) :
    ∀ c ∈ (numeral size index).toList, c.isDigit = true := by
  intro c hc
  rw [toList_numeral] at hc
  rcases List.mem_append.mp hc with hc | hc
  · rw [(List.mem_replicate.mp hc).2]
    rfl
  · exact Nat.isDigit_of_mem_toDigits (by decide) (by decide) hc

/-- The zeros in front do not change the value. -/
theorem value_numeral (size index : Nat) :
    Nat.ofDigitChars 10 (numeral size index).toList 0 = index := by
  rw [toList_numeral, Nat.ofDigitChars_append, Nat.ofDigitChars_replicate_zero, Nat.mul_zero,
    Nat.ofDigitChars_ten_toDigits]

/-- All numbers for one base have one length. -/
theorem length_numeral {size index : Nat} (h : index < size) :
    (numeral size index).length = (size - 1).repr.length := by
  have hle : index.repr.length ≤ (size - 1).repr.length := by
    have hpos : 0 < (size - 1).repr.length := Nat.length_repr_pos
    have hlast := (Nat.length_repr_le_iff hpos).mp (Nat.le_refl (size - 1).repr.length)
    exact (Nat.length_repr_le_iff hpos).mpr (by omega)
  rw [numeral, String.length_append, String.length_ofList, List.length_replicate]
  omega

/-- A number is as long in the text as it has digits. -/
theorem length_repr_eq_digits {n : Nat} (h : n ≠ 0) : n.repr.length = (Nat.digits 10 n).length := by
  have hlog : ∀ k, 0 < k → (n.repr.length ≤ k ↔ Nat.log 10 n + 1 ≤ k) := by
    intro k hk
    rw [Nat.length_repr_le_iff hk, Nat.succ_le_iff, Nat.log_lt_iff_lt_pow (by decide) h]
  have hpos : 0 < n.repr.length := Nat.length_repr_pos
  rw [Nat.length_digits 10 n (by decide) h]
  have hle := (hlog _ (Nat.succ_pos _)).mpr (Nat.le_refl _)
  have hge := (hlog _ hpos).mp (Nat.le_refl _)
  omega

/-- The number behind a name is the decimal numeral of the index. -/
theorem isNumeral_numeral {size index : Nat} (hsize : 1 < size) (h : index < size) :
    IsNumeral (Nat.digits 10 (size - 1)).length index (numeral size index) where
  length := by rw [length_numeral h, length_repr_eq_digits (by omega)]
  digits := isDigit_numeral size index
  value := value_numeral size index

/-! ## Intended names -/

variable {bases : List String} {base : String} {j k : Nat}

/-- The name of the object at a place, if it is not taken. -/
def intended (bases : List String) (k : Nat) : String :=
  let base := bases.getD k ""
  numbered base (bases.count base) ((bases.take k).count base)

/-- The name that is meant for an object depends on how many bases before it are the same. -/
theorem intended_of_getElem? (h : bases[k]? = some base) :
    intended bases k = numbered base (bases.count base) ((bases.take k).count base) := by
  rw [intended, List.getD_eq_getElem?_getD, h]
  rfl

/-- The object at a place is not among those before it. -/
theorem count_take_lt (h : bases[k]? = some base) :
    (bases.take k).count base < bases.count base := by
  obtain ⟨hk, rfl⟩ := List.getElem?_eq_some_iff.mp h
  have hsplit : bases = bases.take k ++ bases[k] :: bases.drop (k + 1) := by
    rw [List.getElem_cons_drop, List.take_append_drop]
  have hcount := congrArg (List.count bases[k]) hsplit
  rw [List.count_append, List.count_cons_self] at hcount
  omega

/-- Of two objects with one base, the later one has the greater number. -/
theorem count_take_lt_count_take (h : bases[j]? = some base) (hjk : j < k) :
    (bases.take j).count base < (bases.take k).count base := by
  have hget : (bases.take k)[j]? = some base := by rw [List.getElem?_take_of_lt hjk, h]
  have hlt := count_take_lt hget
  rwa [List.take_take, Nat.min_eq_left (Nat.le_of_lt hjk)] at hlt

/-- Numbers of at most ten million objects have no more than seven digits. -/
theorem length_numeral_le {size index : Nat} (h : index < size) (hsize : size ≤ 10000000) :
    (numeral size index).toList.length ≤ 7 := by
  rw [String.length_toList, length_numeral h, Nat.length_repr_le_iff (by decide)]
  omega

/-- A numbered base name is neither another base name nor one with another number. -/
theorem numbered_ne {base' : String} {size size' index index' : Nat} (hbase : IsBase base)
    (hbase' : IsBase base') (hne : base ≠ base') (hindex : index < size) (hindex' : index' < size')
    (hsize : size ≤ 10000000) (hsize' : size' ≤ 10000000) :
    numbered base size index ≠ numbered base' size' index' := by
  intro heq
  rw [← String.toList_inj] at heq
  rcases Nat.lt_or_ge 1 size with hmany | hone
  · rw [toList_numbered hmany] at heq
    rcases Nat.lt_or_ge 1 size' with hmany' | hone'
    · rw [toList_numbered hmany'] at heq
      have hword : ∀ n i, '_' ∉ (numeral n i).toList := fun n i hmem =>
        absurd (isDigit_numeral n i _ hmem) (by decide)
      exact hne (String.toList_inj.mp (append_underscore_inj (hword _ _) (hword _ _) heq).1)
    · obtain rfl : size' = 1 := by omega
      rw [numbered_one] at heq
      exact hbase.ne_numbered hbase' (isDigit_numeral _ _) (length_numeral_le hindex hsize) heq.symm
  · obtain rfl : size = 1 := by omega
    rw [numbered_one] at heq
    rcases Nat.lt_or_ge 1 size' with hmany' | hone'
    · rw [toList_numbered hmany'] at heq
      exact hbase'.ne_numbered hbase (isDigit_numeral _ _) (length_numeral_le hindex' hsize') heq
    · obtain rfl : size' = 1 := by omega
      exact hne (String.toList_inj.mp heq)

/-- **Intended names differ.** -/
theorem intended_ne (hbases : ∀ b ∈ bases, IsBase b) (hlen : bases.length ≤ 10000000) (hjk : j < k)
    (hk : k < bases.length) : intended bases j ≠ intended bases k := by
  have hb := List.getElem?_eq_getElem (Nat.lt_trans hjk hk)
  have hb' := List.getElem?_eq_getElem hk
  have hsize : ∀ b, bases.count b ≤ 10000000 := fun b =>
    Nat.le_trans List.count_le_length hlen
  rw [intended_of_getElem? hb, intended_of_getElem? hb']
  by_cases hsame : bases[j] = bases[k]
  · rw [hsame] at hb ⊢
    have hlt := count_take_lt_count_take hb hjk
    have hlt' := count_take_lt hb'
    have hmany : 1 < bases.count bases[k] := by omega
    intro heq
    rw [← String.toList_inj, toList_numbered hmany, toList_numbered hmany] at heq
    have hdigits := (List.cons.inj (List.append_cancel_left heq)).2
    have hvalue := congrArg (Nat.ofDigitChars 10 · 0) hdigits
    simp only [value_numeral] at hvalue
    omega
  · exact numbered_ne (hbases _ (List.getElem_mem _)) (hbases _ (List.getElem_mem _)) hsame
      (count_take_lt hb) (count_take_lt hb') (hsize _) (hsize _)

/-! ## Given names -/

/-- A name that is not in use is taken as it is. -/
theorem fresh_of_notMem {used : List String} {name : String} (h : name ∉ used) :
    fresh used name = name := by
  rw [fresh, dif_neg h]

/-- **Where the intended names differ, they are given.** -/
theorem assign_intended
    (hne : ∀ j k, j < k → k < bases.length → intended bases j ≠ intended bases k)
    (rest : List (ObjectId × String)) (earlier : List String)
    (h : earlier ++ rest.map Prod.snd = bases) :
    (assign bases rest earlier ((List.range earlier.length).map (intended bases))).map Prod.snd =
      (List.range' earlier.length rest.length).map (intended bases) := by
  -- induction on what is left; names in use are those that were meant for what came before
  induction rest generalizing earlier with
  | nil => rfl
  | cons e rest ih =>
    obtain ⟨id, base⟩ := e
    have hget : bases[earlier.length]? = some base := by simp [← h]
    have htake : bases.take earlier.length = earlier := by simp [← h]
    have hname : numbered base (bases.count base) (earlier.count base) =
        intended bases earlier.length := by
      rw [intended_of_getElem? hget, htake]
    -- so the name that is meant next is not in use, and taken as it is
    have hfresh :
        intended bases earlier.length ∉ (List.range earlier.length).map (intended bases) := by
      intro hmem
      obtain ⟨i, hi, heq⟩ := List.mem_map.mp hmem
      exact hne i _ (List.mem_range.mp hi) (List.getElem?_eq_some_iff.mp hget).1 heq
    have hused :
        (List.range earlier.length).map (intended bases) ++ [intended bases earlier.length] =
        (List.range (earlier ++ [base]).length).map (intended bases) := by
      rw [List.length_append, List.length_singleton, List.range_succ, List.map_append]
      rfl
    rw [assign, hname, fresh_of_notMem hfresh, hused, List.map_cons,
      ih (earlier ++ [base]) (by simpa using h), List.length_append, List.length_singleton,
      List.length_cons, List.range'_succ, List.map_cons]

/-! ## The names of a scene -/

variable {s : Scene Float32}

/-- A name in the list is found, if no object is listed twice. -/
theorem get?_of_mem_entries {names : Names} (hnodup : (names.entries.map Prod.fst).Nodup)
    {id : ObjectId} {name : String} (h : (id, name) ∈ names.entries) :
    names.get? id = some name := by
  cases hget : names.get? id with
  | none =>
    have hnone := List.lookup_eq_none_iff.mp hget (id, name) h
    simp at hnone
  | some name' =>
    have heq := List.inj_on_of_nodup_map hnodup h (mem_entries_of_get? hget) rfl
    rw [(Prod.mk.inj heq).2]

end Names

namespace Scene

/-- What an object would be called if it were alone. -/
def baseName (s : Scene Float32) (id : ObjectId) : String := (s.get? id).elim "" Object.baseName

/-- The reachable objects of a base name, in the order of the walk. -/
def namesakes (s : Scene Float32) (base : String) : List ObjectId :=
  s.reachable.filter fun id => s.baseName id = base

end Scene

namespace Names

variable {s : Scene Float32} {k : Nat} {id : ObjectId}

/-- Names are given in the order in which objects are reached. -/
theorem entries_ofScene (s : Scene Float32) : (ofScene s).entries =
    assign (s.reachable.map s.baseName) (s.reachable.map fun id => (id, s.baseName id)) [] [] := by
  rw [ofScene, List.map_map]
  rfl

/-- Every object gets the name that is meant for it. -/
theorem get?_ofScene (hlen : s.reachable.length ≤ 10000000) (h : s.reachable[k]? = some id) :
    (ofScene s).get? id = some (intended (s.reachable.map s.baseName) k) := by
  have hbases : ∀ b ∈ s.reachable.map s.baseName, IsBase b := by
    intro b hb
    obtain ⟨a, ha, rfl⟩ := List.mem_map.mp hb
    obtain ⟨o, ho⟩ := Scene.get?_of_mem_reachable ha
    rw [Scene.baseName, ho]
    exact o.isBase_baseName
  have hnames : (ofScene s).entries.map Prod.snd =
      (List.range s.reachable.length).map (intended (s.reachable.map s.baseName)) := by
    have hassign := assign_intended (fun j k => intended_ne hbases (by rwa [List.length_map]))
      (s.reachable.map fun id => (id, s.baseName id)) [] (by simp)
    rw [entries_ofScene, List.range_eq_range']
    simpa using hassign
  refine get?_of_mem_entries ?_ (List.mem_of_getElem? (i := k) ?_)
  · rw [keys_ofScene]
    exact s.reachable_nodup
  · have hkey := congrArg (·[k]?) (keys_ofScene s)
    have hname := congrArg (·[k]?) hnames
    obtain ⟨hlt, -⟩ := List.getElem?_eq_some_iff.mp h
    simp only [List.getElem?_map, h] at hkey hname
    obtain ⟨e, he, rfl⟩ := Option.map_eq_some_iff.mp hkey
    rw [he, List.getElem?_range hlt] at hname
    rw [he, ← Option.some.inj hname]

/-- An entry of a filtered list stands where as many entries before it pass the test. -/
theorem exists_place_of_filter {α : Type} {p : α → Bool} {l : List α} {i : Nat} {x : α}
    (h : (l.filter p)[i]? = some x) :
    ∃ k, l[k]? = some x ∧ p x = true ∧ (l.take k).countP p = i := by
  induction l generalizing i with
  | nil => cases h
  | cons a l ih =>
    by_cases ha : p a = true
    · rw [List.filter_cons_of_pos ha] at h
      cases i with
      | zero =>
        obtain rfl : a = x := Option.some.inj h
        exact ⟨0, rfl, ha, rfl⟩
      | succ i =>
        obtain ⟨k, hk, hx, hcount⟩ := ih h
        exact ⟨k + 1, hk, hx, by rw [List.take_succ_cons, List.countP_cons_of_pos ha, hcount]⟩
    · rw [List.filter_cons_of_neg ha] at h
      obtain ⟨k, hk, hx, hcount⟩ := ih h
      exact ⟨k + 1, hk, hx, by rw [List.take_succ_cons, List.countP_cons_of_neg ha, hcount]⟩

/-- The name of an object by its place among its namesakes. -/
theorem get?_namesake (hlen : s.reachable.length ≤ 10000000) {base : String} {i : Nat}
    (h : (s.namesakes base)[i]? = some id) :
    (ofScene s).get? id = some (numbered base (s.namesakes base).length i) := by
  obtain ⟨k, hk, hbase, hcount⟩ := exists_place_of_filter h
  have hbase : s.baseName id = base := of_decide_eq_true hbase
  have hcountP : ∀ ids : List ObjectId, (ids.map s.baseName).count base =
      ids.countP fun id => decide (s.baseName id = base) := by
    intro ids
    rw [List.count, List.countP_map]
    rfl
  have hget : (s.reachable.map s.baseName)[k]? = some base := by
    rw [List.getElem?_map, hk, Option.map_some, hbase]
  rw [get?_ofScene hlen hk, intended_of_getElem? hget, ← List.map_take, hcountP, hcountP, hcount,
    List.countP_eq_length_filter]
  rfl

/-- **How a scene is named.**  The reachable objects have names, in the order of the walk and no two
the same.  If there are at most ten million of them, then an object without namesakes is called by
its base name, and of several namesakes each has its number behind the base name, with as many
digits as the highest of these numbers. -/
theorem ofScene_names (s : Scene Float32) :
    (ofScene s).entries.map Prod.fst = s.reachable ∧
    ((ofScene s).entries.map Prod.snd).Nodup ∧
    (s.reachable.length ≤ 10000000 → ∀ base,
      (∀ id, s.namesakes base = [id] → (ofScene s).get? id = some base) ∧
      (2 ≤ (s.namesakes base).length → ∀ i id, (s.namesakes base)[i]? = some id →
        ∃ number, IsNumeral (Nat.digits 10 ((s.namesakes base).length - 1)).length i number ∧
          (ofScene s).get? id = some (base ++ "_" ++ number))) := by
  refine ⟨keys_ofScene s, (nodup_assign _ _ _).1, fun hlen base => ⟨fun id hone => ?_, ?_⟩⟩
  · have hfirst : (s.namesakes base)[0]? = some id := by
      rw [hone]
      rfl
    rw [get?_namesake hlen hfirst, hone]
    rfl
  · intro hmany i id hi
    obtain ⟨hlt, -⟩ := List.getElem?_eq_some_iff.mp hi
    refine ⟨_, isNumeral_numeral hmany hlt, ?_⟩
    rw [get?_namesake hlen hi, numbered_eq hmany]

/-- Eleven sprites and three brushes; one of these has a colour that is spelled in digits, two have
none. -/
def palette : Scene Float32 where
  objects := #[
    { content := .shapeVisual {} [⟨1⟩, ⟨2⟩, ⟨3⟩, ⟨4⟩, ⟨5⟩, ⟨6⟩, ⟨7⟩, ⟨8⟩, ⟨9⟩, ⟨10⟩, ⟨11⟩] },
    { content := .spriteShape { fillBrush := some ⟨12⟩, strokeBrush := some ⟨13⟩ } },
    { content := .spriteShape { fillBrush := some ⟨12⟩, strokeBrush := some ⟨14⟩ } },
    { content := .spriteShape {} }, { content := .spriteShape {} }, { content := .spriteShape {} },
    { content := .spriteShape {} }, { content := .spriteShape {} }, { content := .spriteShape {} },
    { content := .spriteShape {} }, { content := .spriteShape {} }, { content := .spriteShape {} },
    { content := .colorBrush (some ⟨0, 0, 0, 1⟩) },
    { content := .colorBrush none },
    { content := .colorBrush none }]

/-- The palette, as a walk from its root meets it. -/
theorem palette_reachable : palette.reachable =
    [⟨0⟩, ⟨1⟩, ⟨12⟩, ⟨13⟩, ⟨2⟩, ⟨14⟩, ⟨3⟩, ⟨4⟩, ⟨5⟩, ⟨6⟩, ⟨7⟩, ⟨8⟩, ⟨9⟩, ⟨10⟩, ⟨11⟩] := by
  cbv

/-- Names of the palette: some alone, some numbered, and one with a number that is part of its
base. -/
theorem palette_names :
    palette.reachable.length ≤ 10000000 ∧
    palette.namesakes "ColorBrush_00000001" = [⟨12⟩] ∧
    (ofScene palette).get? ⟨12⟩ = some "ColorBrush_00000001" ∧
    palette.namesakes "ColorBrush" = [⟨13⟩, ⟨14⟩] ∧
    (∃ number, IsNumeral 1 1 number ∧
      (ofScene palette).get? ⟨14⟩ = some ("ColorBrush" ++ "_" ++ number)) ∧
    palette.namesakes "SpriteShape" =
      [⟨1⟩, ⟨2⟩, ⟨3⟩, ⟨4⟩, ⟨5⟩, ⟨6⟩, ⟨7⟩, ⟨8⟩, ⟨9⟩, ⟨10⟩, ⟨11⟩] ∧
    ∃ number, IsNumeral 2 6 number ∧
      (ofScene palette).get? ⟨7⟩ = some ("SpriteShape" ++ "_" ++ number) := by
  have hlen : palette.reachable.length ≤ 10000000 := by
    rw [palette_reachable]
    decide
  have hcoloured : palette.namesakes "ColorBrush_00000001" = [⟨12⟩] := by
    rw [Scene.namesakes, palette_reachable]
    cbv
  have hplain : palette.namesakes "ColorBrush" = [⟨13⟩, ⟨14⟩] := by
    rw [Scene.namesakes, palette_reachable]
    cbv
  have hsprites : palette.namesakes "SpriteShape" =
      [⟨1⟩, ⟨2⟩, ⟨3⟩, ⟨4⟩, ⟨5⟩, ⟨6⟩, ⟨7⟩, ⟨8⟩, ⟨9⟩, ⟨10⟩, ⟨11⟩] := by
    rw [Scene.namesakes, palette_reachable]
    cbv
  obtain ⟨-, -, hnames⟩ := ofScene_names palette
  obtain ⟨halone, -⟩ := hnames hlen "ColorBrush_00000001"
  obtain ⟨-, hpair⟩ := hnames hlen "ColorBrush"
  obtain ⟨-, hgroup⟩ := hnames hlen "SpriteShape"
  rw [hplain] at hpair
  rw [hsprites] at hgroup
  refine ⟨hlen, hcoloured, halone _ hcoloured, hplain, ?_, hsprites, ?_⟩
  · simpa using hpair (by decide) 1 ⟨14⟩ rfl
  · simpa using hgroup (by decide) 6 ⟨7⟩ rfl

end Names
end Diorama
