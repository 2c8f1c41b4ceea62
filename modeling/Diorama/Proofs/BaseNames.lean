/-
  What base names look like.

  A base name is made of words, that is of letters and digits, with underscores between them.  It is
  one word for most objects.  Behind `ColorBrush_` stands a colour, and behind the word for an
  animation its first and its last value with `_to_` in between; a colour is one word, and so is a
  number, whatever number it is: a minus is spelled `m`, a point `p`, and what is no number has a
  name.

  Objects that share a base name are told apart by a number behind another underscore.  The result
  can be the base name of another object only if its last word is a number, and there are two ways
  to that.  It is not the last value of an animation, since then the rest would end in `_to`, which
  no base name does (`IsBase.ne_to`).  And it is not a colour as long as it has fewer than eight
  digits.  So up to seven digits are safe:  `IsBase.ne_numbered`.
-/
import Mathlib
import Diorama.Naming.BaseName

namespace Diorama

/-! ## Words -/

/-- Letters and digits. -/
def IsWord (w : List Char) : Prop := ∀ c ∈ w, c.isAlphanum = true

/-- Letters and digits are no underscores. -/
theorem IsWord.underscore_notMem {w : List Char} (h : IsWord w) : '_' ∉ w :=
  fun hmem => absurd (h _ hmem) (by decide)

/-- The last word of a name can be read off it. -/
theorem append_underscore_inj {l l' w w' : List Char} (hw : '_' ∉ w) (hw' : '_' ∉ w')
    (h : l ++ '_' :: w = l' ++ '_' :: w') : l = l' ∧ w = w' := by
  rcases List.append_eq_append_iff.mp h with ⟨m, rfl, hm⟩ | ⟨m, rfl, hm⟩
  · cases m with
    | nil => exact ⟨(List.append_nil l).symm, (List.cons.inj hm).2⟩
    | cons c m =>
      rw [(List.cons.inj hm).2] at hw
      exact absurd (List.mem_append_right _ List.mem_cons_self) hw
  · cases m with
    | nil => exact ⟨List.append_nil l', (List.cons.inj hm).2.symm⟩
    | cons c m =>
      rw [(List.cons.inj hm).2] at hw'
      exact absurd (List.mem_append_right _ List.mem_cons_self) hw'

/-- A word that stands for a value; it does not begin like `to`. -/
structure IsFragment (w : String) : Prop where
  word : IsWord w.toList
  start : w.toList.head? ≠ some 't'

/-- A fragment is not the word between the two values of a name. -/
theorem IsFragment.ne_to {w : String} (h : IsFragment w) : w.toList ≠ ['t', 'o'] := by
  intro heq
  apply h.start
  rw [heq]
  rfl

/-! ## Numbers -/

/-- The characters of a number with decimal places. -/
theorem Decimal.mem_places {count : Nat} {x : Float32} {c : Char}
    (h : c ∈ (places count x).toList) :
    c.isDigit = true ∨ c ∈ ['-', '.', 'N', 'a', 'i', 'n', 'f'] := by
  have hsign : ∀ b : Bool, c ∈ (if b then "-" else "").toList → c = '-' := by
    intro b hc
    cases b with
    | false => cases hc
    | true => exact List.mem_singleton.mp hc
  have hdigits : ∀ n : Nat, c ∈ n.repr.toList → c.isDigit = true := by
    intro n hc
    rw [Nat.toList_repr] at hc
    exact Nat.isDigit_of_mem_toDigits (by decide) (by decide) hc
  have hwords : ∀ w ∈ ["NaN", "inf", "."],
      w.toList.all (· ∈ ['-', '.', 'N', 'a', 'i', 'n', 'f']) = true := by decide
  have hword : ∀ w ∈ ["NaN", "inf", "."], c ∈ w.toList →
      c ∈ ['-', '.', 'N', 'a', 'i', 'n', 'f'] := fun w hw hc =>
    of_decide_eq_true (List.all_eq_true.mp (hwords w hw) c hc)
  unfold places at h
  simp only at h
  split at h
  · exact .inr (hword _ (by simp) h)
  · split at h
    · rw [String.toList_append] at h
      rcases List.mem_append.mp h with h | h
      · simp [hsign _ h]
      · exact .inr (hword _ (by simp) h)
    · simp only [String.toList_append, String.toList_ofList, List.mem_append,
        List.mem_replicate] at h
      rcases h with ((h | h) | h) | ⟨-, rfl⟩ | h
      · simp [hsign _ h]
      · exact .inl (hdigits _ h)
      · exact .inr (hword _ (by simp) h)
      · exact .inl rfl
      · exact .inl (hdigits _ h)

/-- Taking off what is at the end adds nothing. -/
theorem mem_of_mem_dropTrailing {c d : Char} {cs : List Char} (h : d ∈ dropTrailing c cs) :
    d ∈ cs := by
  rw [dropTrailing, List.mem_reverse] at h
  exact List.mem_reverse.mp ((List.dropWhile_sublist _).subset h)

/-- The characters a scalar is named with: digits, letters for the sign and the point, and the names
of what is not finite. -/
theorem mem_nameFragment {x : Float32} {c : Char} (h : c ∈ (nameFragment x).toList) :
    c.isDigit = true ∨ c ∈ ['m', 'p', 'N', 'a', 'i', 'n', 'f'] := by
  rw [nameFragment, String.toList_ofList] at h
  obtain ⟨d, hd, rfl⟩ := List.mem_map.mp h
  have hplaces : d = '0' ∨ d ∈ (Decimal.places 3 x).toList := by
    have hshort : ∀ short : List Char, d ∈ (if short = ['-', '0'] then ['0'] else short) →
        d = '0' ∨ d ∈ short := by
      intro short hd
      split at hd
      · exact .inl (List.mem_singleton.mp hd)
      · exact .inr hd
    refine (hshort _ hd).imp id fun hd => ?_
    split at hd
    · exact mem_of_mem_dropTrailing (mem_of_mem_dropTrailing hd)
    · exact hd
  have hchars : d.isDigit = true ∨ d ∈ ['-', '.', 'N', 'a', 'i', 'n', 'f'] := by
    rcases hplaces with rfl | hplaces
    · exact .inl rfl
    · exact Decimal.mem_places hplaces
  split
  · exact .inr (by decide)
  · split
    · exact .inr (by decide)
    · rename_i hminus hpoint
      refine hchars.imp id fun hd => ?_
      simp only [List.mem_cons, hminus, hpoint, false_or] at hd
      simp only [List.mem_cons, hd, or_true]

/-- A scalar gives one fragment of a name. -/
theorem isFragment_nameFragment (x : Float32) : IsFragment (nameFragment x) where
  word c hc := by
    have hletters : ['m', 'p', 'N', 'a', 'i', 'n', 'f'].all Char.isAlphanum = true := by decide
    rcases mem_nameFragment hc with hdigit | hletter
    · rw [Char.isAlphanum, hdigit, Bool.or_true]
    · exact List.all_eq_true.mp hletters c hletter
  start hstart := by
    rcases mem_nameFragment (List.mem_of_mem_head? hstart) with hdigit | hletter
    · exact absurd hdigit (by decide)
    · exact absurd hletter (by decide)

/-! ## Colours -/

/-- Hexadecimal digits are those below sixteen. -/
theorem exists_digitChar_of_mem_toDigits (n : Nat) :
    ∀ c ∈ Nat.toDigits 16 n, ∃ d < 16, c = Nat.digitChar d := by
  induction n using Nat.strongRecOn with
  | ind n ih =>
    intro c hc
    rw [Nat.toDigits_eq_if (by decide)] at hc
    split at hc
    · rename_i hlt
      exact ⟨n, hlt, List.mem_singleton.mp hc⟩
    · rename_i hge
      rcases List.mem_append.mp hc with hc | hc
      · exact ih (n / 16) (by omega) c hc
      · exact ⟨n % 16, Nat.mod_lt _ (by decide), List.mem_singleton.mp hc⟩

/-- A number in hexadecimal is written with capitals. -/
theorem mem_hexText {width n : Nat} {c : Char} (h : c ∈ (hexText width n).toList) :
    ∃ d < 16, c = (Nat.digitChar d).toUpper := by
  rw [hexText, String.toList_ofList] at h
  rcases List.mem_append.mp h with h | h
  · exact ⟨0, by decide, (List.mem_replicate.mp h).2⟩
  · obtain ⟨a, ha, rfl⟩ := List.mem_map.mp h
    obtain ⟨d, hd, rfl⟩ := exists_digitChar_of_mem_toDigits n a ha
    exact ⟨d, hd, rfl⟩

/-- A number that fits in the width has just as many digits. -/
theorem length_hexText {width n : Nat} (hwidth : 0 < width) (h : n < 16 ^ width) :
    (hexText width n).toList.length = width := by
  have hlen := (Nat.length_toDigits_le_iff (by decide) hwidth).mpr h
  rw [hexText, String.toList_ofList, List.length_append, List.length_replicate, List.length_map]
  omega

namespace Color

/-- Four channels of eight bits fit in eight hexadecimal digits. -/
theorem pack_lt (c : Color) : c.pack < 16 ^ 8 := by
  have ha := c.a.toNat_lt
  have hr := c.r.toNat_lt
  have hg := c.g.toNat_lt
  have hb := c.b.toNat_lt
  unfold pack
  omega

/-- A colour has a name, or eight digits. -/
theorem name_cases (c : Color) : (∃ e ∈ namedColors, c.name = e.2) ∨ c.name = hexText 8 c.pack := by
  unfold name
  cases h : namedColors.lookup c.pack with
  | none => exact .inr rfl
  | some name =>
    obtain ⟨before, after, heq, -⟩ := List.lookup_eq_some_iff.mp h
    refine .inl ⟨(c.pack, name), ?_, rfl⟩
    rw [heq]
    exact List.mem_append_right _ List.mem_cons_self

/-- A colour gives one fragment of a name. -/
theorem isFragment_name (c : Color) : IsFragment c.name := by
  have hnamed : ∀ e ∈ namedColors,
      e.2.toList.all Char.isAlphanum = true ∧ e.2.toList.head? ≠ some 't' := by decide
  have hdigit : ∀ d < 16, (Nat.digitChar d).toUpper.isAlphanum = true ∧
      (Nat.digitChar d).toUpper ≠ 't' := by decide
  rcases c.name_cases with ⟨e, he, hname⟩ | hname
  · rw [hname]
    exact ⟨List.all_eq_true.mp (hnamed e he).1, (hnamed e he).2⟩
  · rw [hname]
    refine ⟨fun a ha => ?_, fun hstart => ?_⟩
    · obtain ⟨d, hd, rfl⟩ := mem_hexText ha
      exact (hdigit d hd).1
    · obtain ⟨d, hd, heq⟩ := mem_hexText (List.mem_of_mem_head? hstart)
      exact (hdigit d hd).2 heq.symm

/-- A colour is not a number of fewer than eight digits. -/
theorem name_ne_digits (c : Color) {ds : List Char} (hdigits : ∀ d ∈ ds, d.isDigit = true)
    (hlen : ds.length ≤ 7) : c.name.toList ≠ ds := by
  have hnamed : ∀ e ∈ namedColors, e.2.toList.all Char.isDigit = false := by decide
  rintro rfl
  rcases c.name_cases with ⟨e, he, hname⟩ | hname
  · rw [hname] at hdigits
    have hletter := hnamed e he
    rw [List.all_eq_true.mpr hdigits] at hletter
    cases hletter
  · rw [hname, length_hexText (by decide) c.pack_lt] at hlen
    omega

end Color

/-- The value at a key frame gives one fragment, if it gives any. -/
theorem KeyFrameValue.isFragment_of_fragment? {value : KeyFrameValue Float32} {w : String}
    (h : value.fragment? = some w) : IsFragment w := by
  cases value with
  | scalar x =>
    cases h
    exact isFragment_nameFragment x
  | color c =>
    cases h
    exact c.isFragment_name
  | _ => cases h

/-! ## Base names -/

/-- How base names are put together. -/
inductive IsBase : String → Prop
  | label (k : Kind) : IsBase k.label
  | keyFrames (k : ValueKind) : IsBase (k.name ++ "KeyFrameAnimation")
  | brush (c : Color) : IsBase ("ColorBrush_" ++ c.name)
  | animation (k : ValueKind) {first last : String} (hfirst : IsFragment first)
      (hlast : IsFragment last) : IsBase (k.name ++ "Animation_" ++ first ++ "_to_" ++ last)

/-- The first and the last value of an animation give a fragment each. -/
theorem KeyFrameAnimation.isFragment_of_endFragments? {a : KeyFrameAnimation Float32}
    {first last : String} (h : a.endFragments? = some (first, last)) :
    IsFragment first ∧ IsFragment last := by
  unfold endFragments? at h
  split at h
  · split at h
    · obtain ⟨w, hw, heq⟩ := Option.map_eq_some_iff.mp h
      cases heq
      have hfragment := KeyFrameValue.isFragment_of_fragment? hw
      exact ⟨hfragment, hfragment⟩
    · obtain ⟨w, hw, h⟩ := Option.bind_eq_some_iff.mp h
      obtain ⟨w', hw', h⟩ := Option.bind_eq_some_iff.mp h
      cases h
      exact ⟨KeyFrameValue.isFragment_of_fragment? hw, KeyFrameValue.isFragment_of_fragment? hw'⟩
    · cases h
  · cases h

/-- **The base of every name is a word, alone or with fragments behind it.** -/
theorem Object.isBase_baseName (o : Object Float32) : IsBase o.baseName := by
  unfold baseName
  split
  · exact .brush _
  · rename_i a _
    unfold KeyFrameAnimation.baseName
    split
    · rename_i first last hends
      obtain ⟨hfirst, hlast⟩ := KeyFrameAnimation.isFragment_of_endFragments? hends
      exact .animation a.kind hfirst hlast
    · exact .keyFrames a.kind
  · exact .label _

/-- The label of a kind is one word. -/
theorem Kind.isWord_label (k : Kind) : IsWord k.label.toList := by
  have hall : k.label.toList.all Char.isAlphanum = true := by cases k <;> rfl
  exact List.all_eq_true.mp hall

theorem ValueKind.isWord_name (k : ValueKind) : IsWord k.name.toList := by
  have hall : k.name.toList.all Char.isAlphanum = true := by cases k <;> rfl
  exact List.all_eq_true.mp hall

theorem ValueKind.isWord_keyFrames (k : ValueKind) :
    IsWord (k.name ++ "KeyFrameAnimation").toList := by
  rw [String.toList_append]
  have hrest : "KeyFrameAnimation".toList.all Char.isAlphanum = true := rfl
  exact List.forall_mem_append.mpr ⟨k.isWord_name, List.all_eq_true.mp hrest⟩

/-- The name of a brush is the word for brushes and a colour. -/
theorem toList_brush (c : Color) :
    ("ColorBrush_" ++ c.name).toList = "ColorBrush".toList ++ '_' :: c.name.toList := by
  rw [String.toList_append]
  rfl

/-- The name of an animation from one value to another ends in the second one. -/
theorem toList_animation (k : ValueKind) (first last : String) :
    (k.name ++ "Animation_" ++ first ++ "_to_" ++ last).toList =
      ((k.name ++ "Animation_" ++ first).toList ++ ['_', 't', 'o']) ++ '_' :: last.toList := by
  simp only [String.toList_append, List.append_assoc]
  rfl

namespace IsBase

variable {base base' : String}

/-- A base name is one word, or its last word stands for a value. -/
theorem last_word (h : IsBase base) : '_' ∉ base.toList ∨
    ∃ stem w, base.toList = stem ++ '_' :: w.toList ∧ IsFragment w := by
  cases h with
  | label k => exact .inl k.isWord_label.underscore_notMem
  | keyFrames k => exact .inl k.isWord_keyFrames.underscore_notMem
  | brush c => exact .inr ⟨_, _, toList_brush c, c.isFragment_name⟩
  | animation k hfirst hlast => exact .inr ⟨_, _, toList_animation k _ _, hlast⟩

/-- No base name ends in `_to`. -/
theorem ne_to (h : IsBase base) (stem : List Char) : base.toList ≠ stem ++ ['_', 't', 'o'] := by
  intro heq
  rcases h.last_word with hword | ⟨stem', w, hbase, hw⟩
  · rw [heq] at hword
    exact hword (by simp)
  · rw [heq] at hbase
    exact hw.ne_to (append_underscore_inj (by decide) hw.word.underscore_notMem hbase).2.symm

/-- **A base name with a number of up to seven digits behind it is no base name.** -/
theorem ne_numbered (h : IsBase base) (h' : IsBase base') {ds : List Char}
    (hdigits : ∀ d ∈ ds, d.isDigit = true) (hlen : ds.length ≤ 7) :
    base'.toList ≠ base.toList ++ '_' :: ds := by
  have hds : '_' ∉ ds := fun hmem => absurd (hdigits _ hmem) (by decide)
  intro heq
  cases h' with
  | label k =>
    refine k.isWord_label.underscore_notMem ?_
    rw [heq]
    simp
  | keyFrames k =>
    refine k.isWord_keyFrames.underscore_notMem ?_
    rw [heq]
    simp
  | brush c =>
    rw [toList_brush] at heq
    have hname := (append_underscore_inj c.isFragment_name.word.underscore_notMem hds heq).2
    exact c.name_ne_digits hdigits hlen hname
  | animation k hfirst hlast =>
    -- the last value is the number, and the rest ends in `_to`
    rw [toList_animation] at heq
    have hstem := (append_underscore_inj hlast.word.underscore_notMem hds heq).1
    exact h.ne_to _ hstem.symm

/-- Base names are made of letters, digits and underscores. -/
theorem chars (h : IsBase base) : ∀ c ∈ base.toList, c.isAlphanum = true ∨ c = '_' := by
  have hliterals : ∀ w ∈ ["ColorBrush_", "Animation_", "_to_"],
      w.toList.all (fun c => c.isAlphanum || c = '_') = true := by decide
  have hliteral : ∀ w ∈ ["ColorBrush_", "Animation_", "_to_"],
      ∀ c ∈ w.toList, c.isAlphanum = true ∨ c = '_' := by
    intro w hw c hc
    simpa using List.all_eq_true.mp (hliterals w hw) c hc
  have hword : ∀ {w : List Char}, IsWord w → ∀ c ∈ w, c.isAlphanum = true ∨ c = '_' :=
    fun hw c hc => .inl (hw c hc)
  cases h with
  | label k => exact hword k.isWord_label
  | keyFrames k => exact hword k.isWord_keyFrames
  | brush c =>
    rw [String.toList_append]
    exact List.forall_mem_append.mpr ⟨hliteral _ (by simp), hword c.isFragment_name.word⟩
  | animation k hfirst hlast =>
    simp only [String.toList_append, List.forall_mem_append]
    exact ⟨⟨⟨⟨hword k.isWord_name, hliteral _ (by simp)⟩, hword hfirst.word⟩, hliteral _ (by simp)⟩,
      hword hlast.word⟩

end IsBase
end Diorama
