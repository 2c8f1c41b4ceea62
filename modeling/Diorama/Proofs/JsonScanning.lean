/-
  Scanning what was written.

  The text of a JSON value is scanned back into the tokens that its form has
  (`Json.spells_prettyAt`), wherever it stands: after a value there is a comma, a line break or the
  end of the text, none of which a numeral can hold.  Strings need no assumption, since an escaped
  character is scanned as the character (`Scan.tokens_escapeChar`).  A number is scanned as what its
  digits spell, `Numeral.echo`; that this is a number at all is the condition `Numeral.Legible`,
  which every whole number of 64 bits meets.
-/
import Mathlib
import Diorama.Json.Read
import Diorama.Json.Write

namespace Diorama

/-! ## Tokens of a text -/

/-- The tokens of the rest of a text, its end included. -/
def Scan.tokens : Scan → List Char → List Token
  | scan, [] => scan.finish
  | scan, c :: rest => (scan.step c).2 ++ tokens (scan.step c).1 rest

/-- The rest of a text does not begin with a character that a numeral may hold. -/
def EndsNumeral (rest : List Char) : Prop := ∀ c ∈ rest.head?, Numeral.isPart c = false

/-- Wherever the text stands, it is scanned as these tokens. -/
def Spells (text : String) (tokens : List Token) : Prop :=
  ∀ rest, EndsNumeral rest →
    Scan.tokens .idle (text.toList ++ rest) = tokens ++ Scan.tokens .idle rest

namespace Json

/-- Characters may be scanned and read in one go, or scanned first and read afterwards. -/
theorem feed_tokens (scope : JsonScope) (chars : List Char) (scan : Scan) (reader : JsonReader) :
    (chars.foldlM (feed scope) (scan, reader) >>= fun p =>
      p.1.finish.foldlM (JsonReader.step scope) p.2) =
    (scan.tokens chars).foldlM (JsonReader.step scope) reader := by
  induction chars generalizing scan reader with
  | nil => rfl
  | cons c rest ih =>
    simp only [List.foldlM_cons, Scan.tokens, List.foldlM_append, feed, bind_assoc, pure_bind, ih]

/-- Reading a text is scanning it as a whole, and then going through the tokens. -/
theorem read_eq_tokens (scope : JsonScope) (text : String) :
    read scope text =
      (Scan.tokens .idle text.toList).foldlM (JsonReader.step scope) .start >>=
        JsonReader.finish := by
  rw [← feed_tokens, bind_assoc]
  rfl

end Json

/-! ## Characters of numerals -/

namespace Numeral

/-- A run of characters that a numeral may hold. -/
def IsRun (run : List Char) : Prop := ∀ c ∈ run, isPart c = true

/-- A run is made of parts of numerals, so it can be cut anywhere. -/
theorem isRun_append {a b : List Char} : IsRun (a ++ b) ↔ IsRun a ∧ IsRun b :=
  List.forall_mem_append

theorem isRun_take {run : List Char} (h : IsRun run) (n : Nat) : IsRun (run.take n) :=
  fun c hc => h c (List.mem_of_mem_take hc)

theorem isRun_drop {run : List Char} (h : IsRun run) (n : Nat) : IsRun (run.drop n) :=
  fun c hc => h c (List.mem_of_mem_drop hc)

/-- The decimal digits of a number are digits. -/
theorem isDigit_of_mem_toDigits {n : Nat} : ∀ c ∈ Nat.toDigits 10 n, c.isDigit = true :=
  fun _ hc => Nat.isDigit_of_mem_toDigits (by decide) (by decide) hc

theorem isRun_repr (n : Nat) : IsRun n.repr.toList := by
  intro c hc
  rw [Nat.toList_repr] at hc
  simp [isPart, isDigit_of_mem_toDigits c hc]

/-- Zeros that fill up are part of a run. -/
theorem isRun_zeros (n : Nat) : IsRun (List.replicate n '0') := by
  intro c hc
  rw [List.eq_of_mem_replicate hc]
  decide

end Numeral

namespace Decimal.Digits

open Numeral

variable (d : Digits)

/-- A number has a first digit. -/
theorem text_eq_cons : ∃ c more, d.text = c :: more ∧ c.isDigit = true := by
  rw [text, Nat.toList_repr]
  cases h : Nat.toDigits 10 d.significand with
  | nil => exact absurd h Nat.toDigits_ne_nil
  | cons c more =>
    exact ⟨c, more, rfl, isDigit_of_mem_toDigits c (by rw [h]; exact List.mem_cons_self)⟩

/-- A number written out in full has a point and what whole numbers end in. -/
theorem isRun_full {wholeEnd : String} (hend : IsRun wholeEnd.toList) :
    IsRun (d.full wholeEnd).toList := by
  have htext : IsRun d.text := isRun_repr _
  have hdot : IsRun ".".toList := by simp [IsRun, isPart]
  have hfront : IsRun "0.".toList := by simp [IsRun, isPart]
  unfold full
  split
  · simp only [String.toList_append, String.toList_ofList, isRun_append]
    exact ⟨⟨htext, isRun_zeros _⟩, hend⟩
  · split
    · simp only [String.toList_append, String.toList_ofList, isRun_append]
      exact ⟨hfront, isRun_zeros _, htext⟩
    · simp only [String.toList_append, String.toList_ofList, isRun_append]
      exact ⟨⟨isRun_take htext _, hdot⟩, isRun_drop htext _⟩

/-- A number with an exponent has a point and the sign of the exponent besides its digits. -/
theorem isRun_scientific : IsRun d.scientific.toList := by
  have htext : IsRun d.text := isRun_repr _
  have hpoint : IsRun (if (d.text.drop 1).isEmpty then "" else ".").toList := by
    split <;> simp [IsRun, isPart]
  have hsign : IsRun (if d.weight < 0 then "-" else "+").toList := by
    split <;> simp [IsRun, isPart]
  have hmark : IsRun "e".toList := by simp [IsRun, isPart]
  simp only [scientific, String.toList_append, String.toList_ofList, isRun_append]
  exact ⟨⟨⟨⟨⟨isRun_take htext _, hpoint⟩, isRun_drop htext _⟩, hmark⟩, hsign⟩, isRun_repr _⟩

/-- Whatever the layout, a number starts with a digit. -/
theorem isDigit_head_write (layout : Layout) :
    (d.write layout).toList.head?.any Char.isDigit = true := by
  obtain ⟨c, more, htext, hc⟩ := d.text_eq_cons
  unfold write
  split
  · unfold full
    split
    · simp [htext, hc]
    · split
      · simp
      · -- the point stands behind at least one digit
        obtain ⟨k, hk⟩ : ∃ k, (d.weight + 1).toNat = k + 1 := ⟨d.weight.toNat, by omega⟩
        simp [htext, hk, hc]
  · simp [scientific, htext, hc]

end Decimal.Digits

namespace Numeral

/-- A sign goes before or is left out. -/
theorem isRun_sign (p : Prop) [Decidable p] : IsRun (if p then "-" else "").toList := by
  split <;> simp [IsRun, isPart]

/-- **A numeral is one run**, so the scanner does not end before the numeral does. -/
theorem isRun_write (n : Numeral) : IsRun n.write.toList := by
  cases n with
  | whole n =>
    rw [write, String.toList_append, isRun_append]
    exact ⟨isRun_sign _, isRun_repr _⟩
  | scaled negative significand exponent =>
    rw [write, String.toList_append, isRun_append]
    refine ⟨isRun_sign _, ?_⟩
    unfold Decimal.Digits.write
    split
    · exact Decimal.Digits.isRun_full _ (by simp [IsRun, isPart, Json.numberLayout])
    · exact Decimal.Digits.isRun_scientific _

/-- The text of a number begins with a digit or a minus sign. -/
theorem write_eq_cons (n : Numeral) :
    ∃ c more, n.write.toList = c :: more ∧ (c.isDigit = true ∨ c = '-') := by
  have hsigned : ∀ (p : Prop) [Decidable p] (s : String), s.toList.head?.any Char.isDigit = true →
      ∃ c more,
        ((if p then "-" else "") ++ s).toList = c :: more ∧ (c.isDigit = true ∨ c = '-') := by
    intro p _ s hs
    by_cases hp : p
    · exact ⟨'-', s.toList, by simp [hp], .inr rfl⟩
    · cases h : s.toList with
      | nil => simp [h] at hs
      | cons c more => exact ⟨c, more, by simp [hp, h], .inl (by simpa [h] using hs)⟩
  cases n with
  | whole n =>
    refine hsigned _ _ ?_
    obtain ⟨c, more, htext, hc⟩ := Decimal.Digits.text_eq_cons ⟨n.natAbs, 0⟩
    rw [Decimal.Digits.text] at htext
    simp [htext, hc]
  | scaled negative significand exponent =>
    exact hsigned _ _ (Decimal.Digits.isDigit_head_write _ _)

/-! ## Scanning numerals -/

/-- What the text of a number is read as. -/
def echo (n : Numeral) : Numeral :=
  match read n.write.toList with
  | .complete m => m
  | _ => n

/-- The text of a number is read as a number that is not too large. -/
def Legible (n : Numeral) : Prop :=
  read n.write.toList = .complete n.echo ∧ n.echo.toDouble?.isSome = true

/-- What a numeral is read back as is its echo. -/
theorem echo_of_read {n m : Numeral} (h : read n.write.toList = .complete m) : n.echo = m := by
  rw [echo, h]

end Numeral

namespace Scan

/-- A numeral starts with a digit or a sign. -/
theorem start_of_numeral {c : Char} (h : c.isDigit = true ∨ c = '-') :
    start c = (.numeral [c], []) := by
  unfold start
  split
  case h_15 => exact if_pos (by simpa using h)
  -- none of the characters that begin another token is a digit or a minus sign
  all_goals exact absurd h (by decide)

/-- A run goes on to its end. -/
theorem tokens_numeral {rest : List Char} (hrest : EndsNumeral rest) {more : List Char}
    (hmore : Numeral.IsRun more) (run : List Char) :
    tokens (.numeral run) (more ++ rest) =
      .ofNumeral (run.reverse ++ more) rest.isEmpty :: tokens .idle rest := by
  induction more generalizing run with
  | nil =>
    rw [List.append_nil]
    cases rest with
    | nil => rfl
    | cons c rest =>
      have hc : Numeral.isPart c = false := hrest c rfl
      simp [tokens, step, hc]
  | cons c more ih =>
    have hc : Numeral.isPart c = true := hmore c List.mem_cons_self
    have hrun := ih (fun x hx => hmore x (List.mem_cons_of_mem c hx)) (c :: run)
    simpa [tokens, step, hc] using hrun

end Scan

namespace Numeral

/-- A numeral is scanned as one token, if what follows is not part of it. -/
theorem tokens_write (n : Numeral) {rest : List Char} (hrest : EndsNumeral rest) :
    Scan.tokens .idle (n.write.toList ++ rest) =
      .ofNumeral n.write.toList rest.isEmpty :: Scan.tokens .idle rest := by
  obtain ⟨c, more, hwrite, hc⟩ := n.write_eq_cons
  have hrun := n.isRun_write
  rw [hwrite] at hrun ⊢
  have htokens := Scan.tokens_numeral hrest (fun x hx => hrun x (List.mem_cons_of_mem c hx)) [c]
  rw [List.cons_append, Scan.tokens, Scan.step, Scan.start_of_numeral hc]
  exact htokens

/-- A numeral that can be read back is spelled as its echo. -/
theorem spells_write {n : Numeral} (h : n.Legible) : Spells n.write [.number n.echo] := by
  intro rest hrest
  rw [tokens_write n hrest, Token.ofNumeral, h.1]
  rfl

end Numeral

/-! ## Whole numbers -/

namespace Numeral

/-- Reading digits on only adds to what was read. -/
theorem le_ofDigitChars (digits : List Char) (n : Nat) : n ≤ Nat.ofDigitChars 10 digits n := by
  rw [Nat.ofDigitChars_eq_ofDigitChars_zero]
  have hpos : 1 * n ≤ 10 ^ digits.length * n :=
    Nat.mul_le_mul_right n (Nat.one_le_pow _ _ (by decide))
  omega

/-- Digits are taken one by one as long as the word holds them. -/
theorem takeDigits_of_lt {digits : List Char} {n : Nat}
    (h : Nat.ofDigitChars 10 digits n < UInt64.size) :
    takeDigits n digits = (Nat.ofDigitChars 10 digits n, 0) := by
  induction digits generalizing n with
  | nil => rfl
  | cons c rest ih =>
    have hnext : 10 * n + (c.toNat - '0'.toNat) = n * 10 + (c.toNat - 48) := by
      rw [Nat.mul_comm]
      rfl
    rw [Nat.ofDigitChars_cons, hnext] at h ⊢
    have hlt := Nat.lt_of_le_of_lt (le_ofDigitChars rest _) h
    rw [takeDigits, if_pos hlt, ih h]

/-- The digits of a number that fits in a word are all taken. -/
theorem takeDigits_toDigits {n : Nat} (h : n < UInt64.size) :
    takeDigits 0 (Nat.toDigits 10 n) = (n, 0) := by
  have hvalue : Nat.ofDigitChars 10 (Nat.toDigits 10 n) 0 = n := Nat.ofDigitChars_ten_toDigits
  rw [takeDigits_of_lt (by rwa [hvalue]), hvalue]

/-- A positive number is written without leading zeros. -/
theorem head?_toDigits_ne_zero (n : Nat) (h : 0 < n) : (Nat.toDigits 10 n).head? ≠ some '0' := by
  induction n using Nat.strongRecOn with
  | ind n ih =>
    by_cases hlt : n < 10
    · rw [Nat.toDigits_of_lt_base hlt]
      interval_cases n <;> decide
    · rw [Nat.toDigits_of_base_le (by decide) (by omega),
        List.head?_append_of_ne_nil _ Nat.toDigits_ne_nil]
      exact ih (n / 10) (by omega) (by omega)

/-- No number of several digits begins with `0`. -/
theorem toDigits_ne_zero_cons (n : Nat) (c : Char) (rest : List Char) :
    Nat.toDigits 10 n ≠ '0' :: c :: rest := by
  intro h
  rcases Nat.eq_zero_or_pos n with rfl | hpos
  · rw [Nat.toDigits_zero] at h
    cases h
  · exact head?_toDigits_ne_zero n hpos (by rw [h]; rfl)

/-- Decimal digits alone are a whole number. -/
theorem readUnsigned_toDigits (negative : Bool) (n : Nat) :
    readUnsigned negative (Nat.toDigits 10 n) =
      .complete (assembleWhole negative (Nat.toDigits 10 n)) := by
  have hspan : (Nat.toDigits 10 n).span Char.isDigit = (Nat.toDigits 10 n, []) := by
    rw [List.span_eq_takeWhile_dropWhile, List.takeWhile_eq_self_iff.mpr isDigit_of_mem_toDigits,
      List.dropWhile_eq_nil_iff.mpr isDigit_of_mem_toDigits]
  have hzero := toDigits_ne_zero_cons n
  rw [readUnsigned, hspan]
  cases h : Nat.toDigits 10 n with
  | nil => exact absurd h Nat.toDigits_ne_nil
  | cons c rest =>
    rw [h] at hzero
    split
    · next heq => cases heq
    · next heq => cases heq
    · next heq =>
      cases heq
      exact absurd rfl (hzero _ _)
    · next heq =>
      cases heq
      rfl
    · next heq => cases heq
    · next heq => cases heq

/-- A whole number without a sign is read back if it fits in a word. -/
theorem assembleWhole_toDigits {n : Nat} (h : n < UInt64.size) :
    assembleWhole false (Nat.toDigits 10 n) = .whole n := by
  have htake := takeDigits_toDigits h
  unfold assembleWhole
  rw [htake]

/-- A negative whole number is read back if it fits in a signed word. -/
theorem assembleWhole_negative {n : Nat} (hpos : 0 < n) (h : 2 * n ≤ UInt64.size) :
    assembleWhole true (Nat.toDigits 10 n) = .whole (-n) := by
  have htake := takeDigits_toDigits (n := n) (by omega)
  unfold assembleWhole
  rw [htake]
  exact if_pos ⟨hpos, h⟩

/-- A whole number of 64 bits is read back. -/
theorem read_write_whole {n : Int} (hlow : Int64.minValue.toInt ≤ n) (hhigh : n < UInt64.size) :
    read (Numeral.whole n).write.toList = .complete (.whole n) := by
  have hmin : Int64.minValue.toInt = -9223372036854775808 := by decide
  have hsize : UInt64.size = 18446744073709551616 := rfl
  rw [hmin] at hlow
  rw [write, String.toList_append, Nat.toList_repr]
  by_cases hneg : n < 0
  · have hvalue : -(n.natAbs : Int) = n := by omega
    rw [if_pos hneg]
    show readUnsigned true (Nat.toDigits 10 n.natAbs) = _
    rw [readUnsigned_toDigits, assembleWhole_negative (by omega) (by omega), hvalue]
  · have hvalue : (n.natAbs : Int) = n := by omega
    rw [if_neg hneg]
    show read (Nat.toDigits 10 n.natAbs) = _
    have hread :
        read (Nat.toDigits 10 n.natAbs) = readUnsigned false (Nat.toDigits 10 n.natAbs) := by
      unfold read
      split
      · next rest heq =>
        have hminus := isDigit_of_mem_toDigits '-' (by rw [heq]; exact List.mem_cons_self)
        exact absurd hminus (by decide)
      · rfl
    rw [hread, readUnsigned_toDigits, assembleWhole_toDigits (by omega), hvalue]

/-- Whole numbers between the smallest signed word and the largest word can be read back. -/
theorem legible_whole {n : Int} (hlow : Int64.minValue.toInt ≤ n) (hhigh : n < UInt64.size) :
    (Numeral.whole n).Legible := by
  have hread := read_write_whole hlow hhigh
  have hecho := echo_of_read hread
  exact ⟨by rw [hecho, hread], by rw [hecho]; rfl⟩

/-- These whole numbers are read back as they are. -/
theorem echo_whole {n : Int} (hlow : Int64.minValue.toInt ≤ n) (hhigh : n < UInt64.size) :
    (Numeral.whole n).echo = .whole n := echo_of_read (read_write_whole hlow hhigh)

end Numeral

/-! ## Strings -/

namespace Scan

/-- The four hexadecimal digits of a control character give its code. -/
theorem hex4?_control : ∀ n < 32,
    hex4? ['0', '0', Json.hexChar (n / 16), Json.hexChar (n % 16)] = some n := by
  decide

/-- Three digits are not enough, and four are. -/
theorem utf8ByteSize_control : ∀ n < 32,
    (String.ofList ['0', '0', Json.hexChar (n / 16)]).utf8ByteSize < 4 ∧
    ¬ (String.ofList ['0', '0', Json.hexChar (n / 16), Json.hexChar (n % 16)]).utf8ByteSize <
      4 := by
  decide

/-- Digits are gathered until there are four of them. -/
theorem step_unicode_of_short (units : TextUnits) (digits : List Char) (c : Char)
    (h : (String.ofList (digits ++ [c])).utf8ByteSize < 4) :
    step (.unicode units digits) c = (.unicode units (digits ++ [c]), []) := if_pos h

/-- A control character comes back from its four digits. -/
theorem tokens_unicode {n : Nat} (h : n < 32) (units : TextUnits) (rest : List Char) :
    tokens (.unicode units [])
      ('0' :: '0' :: Json.hexChar (n / 16) :: Json.hexChar (n % 16) :: rest) =
      tokens (.text (n :: units)) rest := by
  obtain ⟨hshort, hlong⟩ := utf8ByteSize_control n h
  have hone := step_unicode_of_short units [] '0' (by decide)
  have htwo := step_unicode_of_short units ['0'] '0' (by decide)
  have hthree := step_unicode_of_short units ['0', '0'] _ hshort
  have hfour : step (.unicode units ['0', '0', Json.hexChar (n / 16)]) (Json.hexChar (n % 16)) =
      (.text (n :: units), []) := by
    have hhex : hex4? (['0', '0', Json.hexChar (n / 16)] ++ [Json.hexChar (n % 16)]) = some n :=
      hex4?_control n h
    refine (if_neg hlong).trans ?_
    rw [hhex]
  simp only [List.nil_append, List.cons_append] at hone htwo hthree
  rw [tokens, hone, tokens, htwo, tokens, hthree, tokens, hfour]
  rfl

theorem tokens_escape (units : TextUnits) (rest : List Char) :
    tokens (.text units) ('\\' :: 'u' :: rest) = tokens (.unicode units []) rest := rfl

/-- An escaped character is scanned as the character. -/
theorem tokens_escapeChar (c : Char) (units : TextUnits) (rest : List Char) :
    tokens (.text units) (Json.escapeChar c ++ rest) = tokens (.text (c.toNat :: units)) rest := by
  unfold Json.escapeChar
  split
  iterate 7 rfl
  · next hquote hbackslash _ _ _ _ _ =>
    split
    · next hcontrol =>
      simp only [List.cons_append, List.nil_append]
      rw [tokens_escape, tokens_unicode hcontrol]
    · next hcontrol =>
      have hstep : step (.text units) c = (.text (c.toNat :: units), []) := by
        rw [step, if_neg hquote, if_neg hbackslash, if_neg hcontrol]
      rw [List.singleton_append, tokens, hstep]
      rfl

/-- **A text comes back from its escaped characters**, one after the other. -/
theorem tokens_escaped (cs : List Char) (units : TextUnits) (rest : List Char) :
    tokens (.text units) (cs.flatMap Json.escapeChar ++ '"' :: rest) =
      .text (TextUnits.text? ((cs.map Char.toNat).reverse ++ units)) :: tokens .idle rest := by
  induction cs generalizing units with
  | nil => rfl
  | cons c cs ih =>
    rw [List.flatMap_cons, List.append_assoc, tokens_escapeChar, ih]
    simp

end Scan

namespace TextUnits

/-- No character is half of a surrogate pair. -/
theorem not_surrogate (c : Char) : isLow c.toNat = false ∧ isHigh c.toNat = false := by
  have hvalid : c.toNat < 0xD800 ∨ 0xDFFF < c.toNat ∧ c.toNat < 0x110000 := c.valid
  simp only [isLow, isHigh, decide_eq_false_iff_not]
  omega

/-- Code points that come from characters are characters again. -/
theorem chars?_chars (cs after : List Char) :
    chars? (cs.map Char.toNat) after = some (cs.reverse ++ after) := by
  induction cs generalizing after with
  | nil => rfl
  | cons c cs ih =>
    obtain ⟨hlow, hhigh⟩ := not_surrogate c
    cases cs with
    | nil => simp [chars?, hlow, hhigh, Char.ofNat_toNat]
    | cons d cs =>
      rw [List.map_cons, List.map_cons, chars?, hlow, hhigh, Char.ofNat_toNat]
      simpa using ih (c :: after)

/-- A text comes back from its code points. -/
theorem text?_chars (s : String) : text? ((s.toList.map Char.toNat).reverse ++ []) = some s := by
  rw [List.append_nil, ← List.map_reverse, text?, chars?_chars]
  simp

end TextUnits

/-- A quoted text is spelled as one token. -/
theorem Json.spells_quote (s : String) : Spells (quote s) [.text (some s)] := by
  intro rest _
  have htext : (quote s).toList ++ rest = '"' :: (s.toList.flatMap escapeChar ++ '"' :: rest) := by
    simp [quote]
  rw [htext]
  show Scan.tokens (.text []) _ = _
  rw [Scan.tokens_escaped, TextUnits.text?_chars]
  rfl

/-! ## Containers -/

/-- A numeral ends where a character stands that is not part of one. -/
theorem endsNumeral_of_mark {c : Char} {rest : List Char} (h : Numeral.isPart c = false) :
    EndsNumeral (c :: rest) := by
  intro x hx
  cases hx
  exact h

namespace Scan

/-- Blanks between tokens are skipped. -/
theorem tokens_blanks (n : Nat) (rest : List Char) :
    tokens .idle (List.replicate n ' ' ++ rest) = tokens .idle rest := by
  induction n with
  | zero => rfl
  | succ n ih =>
    rw [List.replicate_succ, List.cons_append]
    exact ih

theorem newline_append (depth : Nat) (rest : List Char) :
    (Json.newline depth).toList ++ rest = '\n' :: (List.replicate (2 * depth) ' ' ++ rest) := by
  simp [Json.newline]

/-- A line break and the blanks after it are skipped. -/
theorem tokens_newline (depth : Nat) (rest : List Char) :
    tokens .idle ((Json.newline depth).toList ++ rest) = tokens .idle rest := by
  rw [newline_append]
  exact tokens_blanks (2 * depth) rest

end Scan

/-- A numeral ends at a line break. -/
theorem endsNumeral_newline (depth : Nat) (rest : List Char) :
    EndsNumeral ((Json.newline depth).toList ++ rest) := by
  rw [Scan.newline_append]
  exact endsNumeral_of_mark (by decide)

namespace Spells

variable {lines : List String} {pieces : List (List Token)}

/-- Lines with commas between them. -/
theorem intercalate (depth : Nat) (h : List.Forall₂ Spells lines pieces) :
    Spells (("," ++ Json.newline depth).intercalate lines) ([Token.comma].intercalate pieces) := by
  induction h with
  | nil =>
    intro rest _
    rfl
  | @cons line piece lines pieces hline hlines ih =>
    cases hlines with
    | nil => simpa using hline
    | @cons next first lines pieces hnext hrest =>
      intro rest hends
      have hcomma : EndsNumeral (',' :: ((Json.newline depth).toList ++
          ((("," ++ Json.newline depth).intercalate (next :: lines)).toList ++ rest))) :=
        endsNumeral_of_mark (by decide)
      have htext :
          (("," ++ Json.newline depth).intercalate (line :: next :: lines)).toList ++ rest =
          line.toList ++ ',' :: ((Json.newline depth).toList ++
            ((("," ++ Json.newline depth).intercalate (next :: lines)).toList ++ rest)) := by
        rw [String.intercalate_cons_cons]
        simp
      rw [htext, hline _ hcomma, List.intercalate_cons_cons, List.append_assoc, List.append_assoc,
        ← ih rest hends]
      show piece ++ Token.comma :: Scan.tokens .idle ((Json.newline depth).toList ++ _) = _
      rw [Scan.tokens_newline]
      rfl

/-- Lines in brackets. -/
theorem bracketed {left right : String} {opening closing : Token} (depth : Nat)
    (hleft : ∀ rest, Scan.tokens .idle (left.toList ++ rest) = opening :: Scan.tokens .idle rest)
    (hright : ∀ rest, Scan.tokens .idle (right.toList ++ rest) = closing :: Scan.tokens .idle rest)
    (h : List.Forall₂ Spells lines pieces) :
    Spells (Json.bracketed left right depth lines)
      (opening :: [Token.comma].intercalate pieces ++ [closing]) := by
  intro rest _
  have hinside := intercalate (depth + 1) h _
    (endsNumeral_newline depth (right.toList ++ rest))
  simp only [Json.bracketed, String.toList_append, List.append_assoc]
  rw [hleft, Scan.tokens_newline, hinside, Scan.tokens_newline, hright]
  simp

/-- A member of an object. -/
theorem member {line : String} {piece : List Token} (key : String) (h : Spells line piece) :
    Spells (Json.quote key ++ ": " ++ line) (.text (some key) :: .colon :: piece) := by
  intro rest hends
  have hcolon : EndsNumeral (':' :: ' ' :: (line.toList ++ rest)) := endsNumeral_of_mark (by decide)
  have htext : (Json.quote key ++ ": " ++ line).toList ++ rest =
      (Json.quote key).toList ++ ':' :: ' ' :: (line.toList ++ rest) := by
    simp
  rw [htext, Json.spells_quote key _ hcolon]
  show Token.text (some key) :: Token.colon :: Scan.tokens .idle (line.toList ++ rest) = _
  rw [h rest hends]
  rfl

end Spells

/-! ## Values -/

namespace Json

/-- A value that can be read back with so many containers in each other: its numbers are read as
numbers. -/
inductive Legible : Nat → Json → Prop
  | null (depth : Nat) : Legible depth .null
  | bool (depth : Nat) (b : Bool) : Legible depth (.bool b)
  | number (depth : Nat) {n : Numeral} (h : n.Legible) : Legible depth (.number n)
  | text (depth : Nat) (s : String) : Legible depth (.text s)
  | array {depth : Nat} {items : List Json} (h : ∀ v ∈ items, Legible depth v) :
    Legible (depth + 1) (.array items)
  | object {depth : Nat} {members : List (String × Json)} (h : ∀ m ∈ members, Legible depth m.2) :
    Legible (depth + 1) (.object members)

/-- A member is smaller than the object it is in, which the recursion rests on. -/
theorem sizeOf_member_lt {m : String × Json} {members : List (String × Json)} (h : m ∈ members) :
    sizeOf m.2 < sizeOf (Json.object members) := by
  have hm := List.sizeOf_lt_of_mem h
  have hpair : sizeOf m = 1 + sizeOf m.1 + sizeOf m.2 := rfl
  simp only [Json.object.sizeOf_spec]
  omega

/-- The tokens of a value. -/
def tokens : Json → List Token
  | .null => [.null]
  | .bool b => [.bool b]
  | .number n => [.number n.echo]
  | .text s => [.text (some s)]
  | .array items => .openArray :: [Token.comma].intercalate (items.map tokens) ++ [.closeArray]
  | .object members =>
    .openObject :: [Token.comma].intercalate (members.map fun m =>
      .text (some m.1) :: .colon :: tokens m.2) ++ [.closeObject]
termination_by v => sizeOf v
decreasing_by
  · exact List.sizeOf_lt_of_mem ‹_› |>.trans (by simp)
  · exact sizeOf_member_lt ‹_›

/-- Items are written at one depth. -/
theorem prettyItems_eq (depth : Nat) (items : List Json) :
    prettyItems depth items = items.map (prettyAt depth) := by
  induction items with
  | nil => rfl
  | cons v rest ih => rw [prettyItems, ih, List.map_cons]

/-- Members are written at one depth, each with its name before it. -/
theorem prettyMembers_eq (depth : Nat) (members : List (String × Json)) :
    prettyMembers depth members =
      members.map fun m => quote m.1 ++ ": " ++ prettyAt depth m.2 := by
  induction members with
  | nil => rfl
  | cons m rest ih => rw [prettyMembers, ih, List.map_cons]

/-- **The text of a value is scanned as the tokens of the value.** -/
theorem spells_prettyAt {limit : Nat} {v : Json} (h : v.Legible limit) (depth : Nat) :
    Spells (prettyAt depth v) v.tokens := by
  -- induction on legibility; the depth of nesting changes with every level
  induction h generalizing depth with
  | null =>
    intro rest _
    rw [prettyAt, tokens]
    rfl
  | bool _ b =>
    intro rest _
    rw [prettyAt, tokens]
    cases b <;> rfl
  | number _ hn =>
    rw [prettyAt, tokens]
    exact Numeral.spells_write hn
  | text _ s =>
    rw [prettyAt, tokens]
    exact spells_quote s
  | @array _ items _ ih =>
    have hlines : List.Forall₂ Spells (items.map (prettyAt (depth + 1))) (items.map tokens) := by
      rw [List.forall₂_map_left_iff, List.forall₂_map_right_iff, List.forall₂_same]
      intro v hv
      exact ih v hv (depth + 1)
    rw [tokens]
    cases items with
    | nil =>
      intro rest _
      rw [prettyAt]
      rfl
    | cons v rest =>
      rw [prettyAt, prettyItems_eq]
      exact Spells.bracketed depth (fun _ => rfl) (fun _ => rfl) hlines
  | @object _ members _ ih =>
    have hlines : List.Forall₂ Spells
        (members.map fun m => quote m.1 ++ ": " ++ prettyAt (depth + 1) m.2)
        (members.map fun m => .text (some m.1) :: .colon :: tokens m.2) := by
      rw [List.forall₂_map_left_iff, List.forall₂_map_right_iff, List.forall₂_same]
      intro m hm
      exact Spells.member m.1 (ih m hm (depth + 1))
    rw [tokens]
    cases members with
    | nil =>
      intro rest _
      rw [prettyAt]
      rfl
    | cons m rest =>
      rw [prettyAt, prettyMembers_eq]
      exact Spells.bracketed depth (fun _ => rfl) (fun _ => rfl) hlines

/-- **A value that is written out is scanned as its tokens.** -/
theorem tokens_pretty {limit : Nat} {v : Json} (h : v.Legible limit) :
    Scan.tokens .idle v.pretty.toList = v.tokens := by
  have htokens := spells_prettyAt h 0 [] (fun _ hc => by cases hc)
  rw [pretty]
  simpa [Scan.tokens, Scan.finish] using htokens

end Json
end Diorama
