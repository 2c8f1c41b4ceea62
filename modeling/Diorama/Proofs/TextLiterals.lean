/-
  Text literals.

  A literal means the text that it is written for: a reader that undoes the five escapes and stops
  at the first quote without a backslash gets the text back and leaves what follows
  (`Language.readLiteral_quoted`).  Runs of backslashes are no danger, since a backslash is always
  written twice.

  No literal holds a line break.  All other characters of a statement are printable as long as the
  names of objects are, so the statements of emitted code are lines.
-/
import Mathlib
import Diorama.Proofs.Identifiers
import Diorama.Proofs.SpelledLines

namespace Diorama

namespace Language

/-! ## Reading literals -/

/-- The character that this one stands for behind a backslash. -/
def unescape? : Char → Option Char
  | '"' => some '"'
  | '\\' => some '\\'
  | 'n' => some '\n'
  | 'r' => some '\r'
  | 't' => some '\t'
  | _ => none

/-- Reads up to the quote that ends a literal.  A backslash that starts no escape is a character
like others. -/
def readQuoted : List Char → Option (List Char × List Char)
  | [] => none
  | '"' :: rest => some ([], rest)
  | '\\' :: c :: rest =>
    match unescape? c with
    | some d => (readQuoted rest).map (Prod.map (d :: ·) id)
    | none => (readQuoted (c :: rest)).map (Prod.map ('\\' :: ·) id)
  | c :: rest => (readQuoted rest).map (Prod.map (c :: ·) id)

/-- Reads a literal with or without an `L` before it, and gives its text and what follows. -/
def readLiteral : List Char → Option (String × List Char)
  | 'L' :: '"' :: rest => (readQuoted rest).map (Prod.map String.ofList id)
  | '"' :: rest => (readQuoted rest).map (Prod.map String.ofList id)
  | _ => none

/-- A character is read back from its escape. -/
theorem readQuoted_escapeChar (c : Char) (rest : List Char) :
    readQuoted (escapeChar c ++ rest) = (readQuoted rest).map (Prod.map (c :: ·) id) := by
  unfold escapeChar
  split
  case h_6 hquote hbackslash _ _ _ =>
    rw [List.singleton_append, readQuoted]
    · exact hquote
    · exact fun d _ h => (hbackslash h).elim
  all_goals rfl

/-- **A quoted text is read back, up to the closing quote and not beyond.** -/
theorem readQuoted_escaped (text rest : List Char) :
    readQuoted (text.flatMap escapeChar ++ '"' :: rest) = some (text, rest) := by
  induction text with
  | nil => rfl
  | cons c text ih =>
    rw [List.flatMap_cons, List.append_assoc, readQuoted_escapeChar, ih]
    rfl

/-- **A literal is read back as its text**, whatever follows. -/
theorem readLiteral_quoted {mark : String} (hmark : mark = "" ∨ mark = "L") (s : String)
    (rest : List Char) : readLiteral ((quoted mark s).toList ++ rest) = some (s, rest) := by
  have hbody := readQuoted_escaped s.toList rest
  have hquoted : (quoted mark s).toList ++ rest =
      mark.toList ++ '"' :: (s.toList.flatMap escapeChar ++ '"' :: rest) := by
    simp [quoted]
  rw [hquoted]
  rcases hmark with rfl | rfl
  · show (readQuoted _).map (Prod.map String.ofList id) = _
    rw [hbody]
    simp
  · show (readQuoted _).map (Prod.map String.ofList id) = _
    rw [hbody]
    simp

/-! ## Characters of a literal -/

/-- A character of an escape is printable, or it needs none. -/
theorem mem_escapeChar {c d : Char} (h : d ∈ escapeChar c) :
    isInk d = true ∨ d = c ∧ c ∉ ['\n', '\r', '\t'] := by
  unfold escapeChar at h
  split at h
  case h_6 _ _ hfeed hreturn htab =>
    rw [List.mem_singleton] at h
    refine .inr ⟨h, ?_⟩
    simp only [List.mem_cons, List.not_mem_nil, or_false, not_or]
    exact ⟨hfeed, hreturn, htab⟩
  all_goals
    left
    fin_cases h <;> rfl

/-- A character of a literal is printable, or it is one of the text and needs no escape. -/
theorem Neat.mem_text {lang : Language} (hlang : lang.Neat) {s : String} {c : Char}
    (h : c ∈ (lang.text s).toList) :
    isInk c = true ∨ c ∈ s.toList ∧ c ∉ ['\n', '\r', '\t'] := by
  obtain ⟨mark, hmark, htext⟩ := hlang.text
  rw [htext, quoted, String.toList_append, String.toList_ofList] at h
  rcases List.mem_append.mp h with hc | hc
  · exact .inl (List.all_eq_true.mp hmark c hc)
  · simp only [List.cons_append, List.mem_cons, List.mem_append, List.mem_flatMap, List.not_mem_nil,
      or_false] at hc
    rcases hc with rfl | ⟨d, hd, hc⟩ | rfl
    · exact .inl rfl
    · rcases mem_escapeChar hc with hink | ⟨rfl, hplain⟩
      · exact .inl hink
      · exact .inr ⟨hd, hplain⟩
    · exact .inl rfl

end Language

/-! ## Characters of a line -/

/-- A character of a line is printable or stands in a literal. -/
theorem Language.Cites.mem_line {lang : Language} {ids : List ObjectId} {texts : List String}
    {text : (ObjectId → String) → String} (h : lang.Cites ids texts text) {name : ObjectId → String}
    (hname : ∀ id, isPrintable (name id) = true) {c : Char} (hc : c ∈ (text name).toList) :
    isInk c = true ∨ ∃ t ∈ texts, c ∈ (lang.text t).toList := by
  obtain ⟨pieces, -, rfl, hfixed, htext⟩ := h
  rw [htext, Piece.line, String.toList_join, List.mem_flatMap] at hc
  obtain ⟨_, hspelled, hc⟩ := hc
  obtain ⟨piece, hpiece, rfl⟩ := List.mem_map.mp hspelled
  cases piece with
  | fixed t => exact .inl (List.all_eq_true.mp (hfixed t hpiece) c hc)
  | literal t => exact .inr ⟨t, List.mem_filterMap.mpr ⟨_, hpiece, rfl⟩, hc⟩
  | call id =>
    have hcall : isPrintable (name id ++ "()") = true := by
      rw [isPrintable_append, hname]
      rfl
    exact .inl (List.all_eq_true.mp hcall c hc)

/-! ## Lines of methods -/

/-- Lower case of what is printable is printable. -/
theorem isInk_toLower {c : Char} (h : isInk c = true) : isInk c.toLower = true := by
  unfold Char.toLower
  split
  · rename_i hupper
    have hval : 32 ≤ c.val + 32 ∧ c.val + 32 ≤ 126 := by grind
    simp only [isInk, Bool.and_eq_true, decide_eq_true_eq]
    exact hval
  · exact h

/-- A field is named with printable characters, as its object is. -/
theorem isPrintable_fieldName {name : String} (h : isPrintable name = true) :
    isPrintable (fieldName name) = true := by
  unfold fieldName
  split
  · rfl
  · rename_i first rest hname
    rw [isPrintable, hname, List.all_cons, Bool.and_eq_true] at h
    rw [isPrintable, String.toList_ofList, List.all_cons, List.all_cons, isInk_toLower h.1, h.2]
    rfl

/-- All names are printable. -/
def Names.ArePrintable (names : Names) : Prop := ∀ id, isPrintable (names.nameOf id) = true

/-- All names are printable. -/
theorem Names.arePrintable_ofScene (s : Scene Float32) : (Names.ofScene s).ArePrintable := by
  intro id
  rw [Names.nameOf]
  cases h : (Names.ofScene s).get? id with
  | none => rfl
  | some name =>
    refine List.all_eq_true.mpr fun c hc => ?_
    rcases (Names.isName_ofScene h).chars c hc with hc | rfl
    · exact isInk_of_isAlphanum hc
    · rfl

/-- Statements of a method are legible and have the objects under their names already. -/
theorem Method.statements_of_ofObject {s : Scene Float32} {names : Names} {uses : Nat}
    {id : ObjectId}
    {o : Object Float32} {m : Method} (h : Method.ofObject s names uses id o = .ok m)
    (hnames : names.ArePrintable) :
    ∀ line ∈ m.statements, line.isLegible = true ∧ line.named names.nameOf = line := by
  obtain ⟨name, hname, h⟩ := exists_of_bind_ok h
  obtain ⟨body, hbody, h⟩ := exists_of_bind_ok h
  cases h
  have hsame := Body.restates_ofObject hbody hbody
  have hname : isPrintable name = true := by
    have hprintable := hnames id
    rwa [Names.nameOf, Names.get?_of_name hname] at hprintable
  have hfield : ∀ f ∈ if 1 < uses then some (fieldName name) else none, isPrintable f = true := by
    intro f hf
    split at hf
    · cases hf
      exact isPrintable_fieldName hname
    · cases hf
  -- the names in a body are what its objects are called already
  have hfixed : ∀ lines : List Statement, lines = lines.map (·.named names.nameOf) →
      ∀ line ∈ lines, line.named names.nameOf = line := by
    intro lines hlines
    exact List.map_inj_left.mp (hlines.symm.trans (List.map_id lines).symm)
  have hbefore := hfixed _ (congrArg Body.before hsame.renamed)
  have hafter := hfixed _ (congrArg Body.after hsame.renamed)
  have hcreation := congrArg Body.creation hsame.renamed
  intro line hline
  rcases List.mem_append.mp hline with hline | hline
  · exact ⟨hsame.before line hline, hbefore line hline⟩
  · rcases List.mem_cons.mp hline with rfl | hline
    · refine ⟨?_, congrArg _ hcreation.symm⟩
      rw [Statement.isLegible, Statement.words, List.all_append, hsame.creation, Bool.and_true]
      exact List.all_eq_true.mpr fun f hf => hfield f (Option.mem_toList.mp hf)
    · exact ⟨hsame.after line hline, hafter line hline⟩

namespace Scene

variable {s : Scene Float32} {names : Names} {settings : CodeSettings} {lang : Language}
  {code : GeneratedCode}

/-- A character of a statement in emitted code is printable or stands in a literal. -/
theorem mem_statements_of_emit (hlang : lang.Neat) (hnames : names.ArePrintable)
    (h : s.emit names settings lang = .ok code) {m : WrittenMethod} (hm : m ∈ code.written)
    {line : String} (hline : line ∈ m.statements) {c : Char} (hc : c ∈ line.toList) :
    isInk c = true ∨ ∃ t, c ∈ (lang.text t).toList := by
  obtain ⟨i, hi, h⟩ := exists_of_bind_ok h
  cases h
  obtain ⟨ix, -, hi⟩ := exists_of_bind_ok hi
  obtain ⟨methods, hmethods, hi⟩ := exists_of_bind_ok hi
  obtain ⟨root, -, hi⟩ := exists_of_bind_ok hi
  cases hi
  obtain ⟨method, hmethod, rfl⟩ := List.mem_map.mp hm
  obtain ⟨statement, hstatement, rfl⟩ := List.mem_map.mp hline
  obtain ⟨⟨id, o⟩, -, hmade⟩ := exists_of_mem_of_mapM_ok hmethods hmethod
  obtain ⟨hlegible, hsame⟩ := Method.statements_of_ofObject hmade hnames statement hstatement
  rw [← hsame] at hc
  rcases (hlang.cites_statement hlegible).mem_line hnames hc with hink | ⟨t, -, ht⟩
  · exact .inl hink
  · exact .inr ⟨t, ht⟩

end Scene

/-! ## Lines without breaks -/

/-- A text with no line feed or carriage return in it. -/
def IsOneLine (text : String) : Prop := '\n' ∉ text.toList ∧ '\r' ∉ text.toList

/-- Without line breaks and tabs, a text is one line. -/
theorem isOneLine_of_forall {text : String}
    (h : ∀ c ∈ text.toList, isInk c = true ∨ c ∉ ['\n', '\r', '\t']) : IsOneLine text := by
  constructor
  · intro hfeed
    rcases h _ hfeed with hink | hplain
    · cases hink
    · exact hplain (by simp)
  · intro hreturn
    rcases h _ hreturn with hink | hplain
    · cases hink
    · exact hplain (by simp)

/-- A literal is on one line, whatever its text has in it. -/
theorem Language.Neat.isOneLine_text {lang : Language} (h : lang.Neat) (s : String) :
    IsOneLine (lang.text s) :=
  isOneLine_of_forall fun _ hc => (h.mem_text hc).imp_right And.right

namespace Language

theorem neat_of_mem {lang : Language} (h : lang ∈ [cSharp, cppCx]) : lang.Neat := by
  simp only [List.mem_cons, List.not_mem_nil, or_false] at h
  rcases h with rfl | rfl
  · exact neat_cSharp
  · exact neat_cppCx

/-- **Text literals mean their texts** in both languages: what is read from a literal and what
stands behind it is the text, with the rest left.  No literal has a line break in it, and with the
names of the scene itself no line of an emitted method has one. -/
theorem text_literals {lang : Language} (hlang : lang ∈ [cSharp, cppCx]) :
    (∀ (s : String) (rest : List Char),
      readLiteral ((lang.text s).toList ++ rest) = some (s, rest)) ∧
    (∀ s, IsOneLine (lang.text s)) ∧
    ∀ (s : Scene Float32) (settings : CodeSettings) (code : GeneratedCode),
      s.emit (Names.ofScene s) settings lang = .ok code →
      ∀ m ∈ code.written, ∀ line ∈ m.statements, IsOneLine line := by
  have hneat := neat_of_mem hlang
  refine ⟨fun s rest => ?_, hneat.isOneLine_text, fun s settings code h m hm line hline => ?_⟩
  · simp only [List.mem_cons, List.not_mem_nil, or_false] at hlang
    rcases hlang with rfl | rfl
    · exact readLiteral_quoted (.inl rfl) s rest
    · exact readLiteral_quoted (.inr rfl) s rest
  · refine isOneLine_of_forall fun c hc => ?_
    have hprintable := Names.arePrintable_ofScene s
    rcases s.mem_statements_of_emit hneat hprintable h hm hline hc with hink | ⟨t, ht⟩
    · exact .inl hink
    · exact (hneat.mem_text ht).imp_right And.right

end Language

/-- A visual with a comment that has everything to escape in it. -/
def Scene.placard : Scene Float32 where
  objects := #[
    { content := .containerVisual {} []
      attached := { comment := some "\\\r\n\t\"exit\"\\" } }]

/-- The method for the placard, with its comment. -/
theorem Scene.placard_ofScene : Instantiator.ofScene placard (Names.ofScene placard) = .ok {
    methods := [
      { object := ⟨0⟩
        name := "ContainerVisual"
        typeName := "ContainerVisual"
        isCached := false
        statements := [
          .create none (.compositor "CreateContainerVisual" []),
          .set "Comment" (.text "\\\r\n\t\"exit\"\\")]
        description := none }]
    root := "ContainerVisual" } := by
  cbv

/-- A comment with line breaks, a tab, quotes and backslashes, written on one line. -/
theorem Language.placard_text_literals :
    readLiteral ("L\"\\\\\\r\\n\\t\\\"exit\\\"\\\\\"".toList ++ [';']) =
      some ("\\\r\n\t\"exit\"\\", [';']) ∧
    ∃ code m, Scene.placard.emit (Names.ofScene .placard) {} cppCx = .ok code ∧ m ∈ code.written ∧
      m.statements = ["auto result = _c->CreateContainerVisual();",
        "result->Comment = L\"\\\\\\r\\n\\t\\\"exit\\\"\\\\\";"] ∧
      ∀ line ∈ m.statements, IsOneLine line := by
  obtain ⟨hread, -, hlines⟩ := text_literals (show cppCx ∈ [cSharp, cppCx] by simp)
  have hemit := Scene.emit_of_ofScene Scene.placard_ofScene {} cppCx
  have hliteral : cppCx.text "\\\r\n\t\"exit\"\\" = "L\"\\\\\\r\\n\\t\\\"exit\\\"\\\\\"" := rfl
  refine ⟨?_, _, _, hemit, List.mem_cons_self, rfl, hlines _ _ _ hemit _ List.mem_cons_self⟩
  rw [← hliteral]
  exact hread _ _

end Diorama
