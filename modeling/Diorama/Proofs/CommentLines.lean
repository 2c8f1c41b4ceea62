/-
  Comments in emitted code.

  The header of a file and the descriptions of its methods are texts of the user.  They are cut into
  lines, and every line gets slashes before it.  The rest of the file does not depend on them:
  without the comment lines it is the file of the same methods with nothing to comment
  (`Language.annotates_source`).

  A line is cut at line feeds only, but a comment ends at a carriage return as well.  So a comment
  line is a comment as a whole exactly if no carriage return is left in it, which is so for all of
  them exactly if every carriage return in the texts stands before a line feed; otherwise the rest
  of the line is read as code.

  Line feeds and carriage returns are the terminators that are meant here, those that both languages
  have.  C# has three more, U+0085, U+2028 and U+2029, which the page does not treat in any way; the
  reader below takes them for characters like others.
-/
import Mathlib
import Diorama.Code.CSharp
import Diorama.Code.CppCx
import Diorama.Proofs.MethodCalls

namespace Diorama

/-! ## Lines of a text -/

/-- Whether every carriage return stands before a line feed. -/
def returnsBreak : List Char → Bool
  | [] => true
  | c :: rest => (c ≠ '\r' || rest.head? = some '\n') && returnsBreak rest

/-- Within a line, no carriage return stands before a line feed. -/
theorem returnsBreak_line {line : List Char} (hline : '\n' ∉ line) :
    returnsBreak line = true ↔ '\r' ∉ line := by
  induction line with
  | nil => simp [returnsBreak]
  | cons c line ih =>
    have hrest : '\n' ∉ line := fun h => hline (List.mem_cons_of_mem c h)
    have hhead : line.head? ≠ some '\n' := fun h => hrest (List.mem_of_head? h)
    rw [returnsBreak, Bool.and_eq_true, ih hrest, decide_eq_false hhead, Bool.or_false,
      decide_eq_true_eq, ne_comm, List.mem_cons, not_or]

/-- A carriage return is dropped at the end only. -/
theorem dropReturn_cons_cons (c d : Char) (line : List Char) :
    dropReturn (c :: d :: line) = c :: dropReturn (d :: line) := by
  rw [dropReturn, dropReturn, List.getLast?_cons_cons, List.dropLast_cons_cons]
  split <;> rfl

/-- A line and the feed that ends it: a carriage return at the end of the line is part of the
break. -/
theorem returnsBreak_append {line : List Char} (hline : '\n' ∉ line) (rest : List Char) :
    returnsBreak (line ++ '\n' :: rest) = true ↔
      '\r' ∉ dropReturn line ∧ returnsBreak rest = true := by
  induction line with
  | nil => simp [returnsBreak, dropReturn]
  | cons c line ih =>
    have hrest : '\n' ∉ line := fun h => hline (List.mem_cons_of_mem c h)
    cases line with
    | nil =>
      have hdropped : '\r' ∉ dropReturn [c] := by
        by_cases hc : c = '\r'
        · simp [dropReturn, hc]
        · simp [dropReturn, hc, Ne.symm hc]
      simp [returnsBreak, hdropped]
    | cons d line =>
      have hd : d ≠ '\n' := fun h => hrest (h ▸ List.mem_cons_self)
      have hcons : returnsBreak (c :: (d :: line ++ '\n' :: rest)) = true ↔
          c ≠ '\r' ∧ returnsBreak (d :: line ++ '\n' :: rest) = true := by
        rw [returnsBreak]
        simp [hd]
      rw [List.cons_append, hcons, ih hrest, dropReturn_cons_cons, List.mem_cons, not_or, and_assoc,
        ne_comm]

theorem mem_dropReturn {c : Char} {line : List Char} (h : c ∈ dropReturn line) : c ∈ line := by
  unfold dropReturn at h
  split at h
  · exact List.mem_of_mem_dropLast h
  · exact h

/-- At the end of a text, a last line counts if it is not empty. -/
theorem textLinesFrom_nil (line : List Char) :
    textLinesFrom line [] = if line = [] then [] else [line] := by
  cases line <;> rfl

/-- A line feed ends the line. -/
theorem textLinesFrom_feed (line rest : List Char) :
    textLinesFrom line ('\n' :: rest) = dropReturn line :: textLinesFrom [] rest := by
  cases line <;> rfl

/-- Any other character is added to the line. -/
theorem textLinesFrom_cons {c : Char} (hc : c ≠ '\n') (line rest : List Char) :
    textLinesFrom line (c :: rest) = textLinesFrom (line ++ [c]) rest := by
  rw [textLinesFrom]
  exact hc

/-- The lines hold no line feed.  No carriage return is left in them exactly if each is part of a
break. -/
theorem textLinesFrom_breaks (line rest : List Char) (hline : '\n' ∉ line) :
    (∀ l ∈ textLinesFrom line rest, '\n' ∉ l) ∧
    ((∀ l ∈ textLinesFrom line rest, '\r' ∉ l) ↔ returnsBreak (line ++ rest) = true) := by
  induction rest generalizing line with
  | nil =>
    rw [textLinesFrom_nil, List.append_nil, returnsBreak_line hline]
    split
    · rename_i hnil
      simp [hnil]
    · simp [hline]
  | cons c rest ih =>
    by_cases hc : c = '\n'
    · subst hc
      obtain ⟨hfeeds, hreturns⟩ := ih [] (by simp)
      rw [textLinesFrom_feed, returnsBreak_append hline, List.forall_mem_cons, List.forall_mem_cons,
        hreturns]
      exact ⟨⟨fun h => hline (mem_dropReturn h), hfeeds⟩, Iff.rfl⟩
    · have hnext : '\n' ∉ line ++ [c] := by simp [hline, Ne.symm hc]
      have hstep := ih (line ++ [c]) hnext
      rwa [List.append_assoc, List.singleton_append, ← textLinesFrom_cons hc] at hstep

/-- Cut into lines, a text has no line feeds, and no carriage returns exactly if each is part of a
break. -/
theorem textLines_breaks (text : String) :
    (∀ line ∈ textLines text, '\n' ∉ line.toList) ∧
    ((∀ line ∈ textLines text, '\r' ∉ line.toList) ↔ returnsBreak text.toList = true) := by
  have h := textLinesFrom_breaks [] text.toList (by simp)
  simpa [textLines, List.forall_mem_map] using h

/-! ## Comments -/

/-- Whether a character ends a line of code in both languages: a line feed or a carriage return. -/
def isBreak (c : Char) : Bool := c = '\n' || c = '\r'

/-- Reads a line comment after blanks: what the line holds behind the slashes up to a line feed or a
carriage return, and what follows it. -/
def readComment : List Char → Option (List Char × List Char)
  | ' ' :: rest => readComment rest
  | '/' :: '/' :: rest => some (rest.takeWhile (!isBreak ·), rest.dropWhile (!isBreak ·))
  | _ => none

/-- A line that is one comment, to its end: no line feed or carriage return cuts it short. -/
def IsComment (line : String) : Prop := ∃ body, readComment line.toList = some (body, [])

/-- A line of a file. -/
inductive FileLine where
  | code (text : String)
  /-- A comment at a depth. -/
  | comment (depth : Nat) (text : String)

namespace FileLine

/-- The line as it stands in the file. -/
def write : FileLine → String
  | .code text => text
  | .comment depth text => Page.indentation depth ++ Language.comment text

/-- The line, if it is code. -/
def code? : FileLine → Option String
  | .code text => some text
  | .comment _ _ => none

/-- The text of the line, if it is a comment. -/
def comment? : FileLine → Option String
  | .code _ => none
  | .comment _ text => some text

/-- A file in lines: those that are no comments make up the plain file, and the others hold these
texts. -/
structure Composes (lines : List FileLine) (file plain : String) (texts : List String) : Prop where
  file : file = ({ lines := lines.map write } : Page).text
  plain : plain = ({ lines := lines.filterMap code? } : Page).text
  comments : lines.filterMap comment? = texts.flatMap textLines

/-- What is left behind the comment is the text from its first line break on. -/
theorem readComment_write (depth : Nat) (text : String) :
    readComment (write (.comment depth text)).toList =
      some (' ' :: text.toList.takeWhile (!isBreak ·), text.toList.dropWhile (!isBreak ·)) := by
  have hblanks : ∀ n rest, readComment (List.replicate n ' ' ++ rest) = readComment rest := by
    intro n rest
    induction n with
    | zero => rfl
    | succ n ih => exact ih
  have hline : (write (.comment depth text)).toList =
      List.replicate (4 * depth) ' ' ++ '/' :: '/' :: ' ' :: text.toList := by
    simp [write, Page.indentation, Language.comment]
  rw [hline, hblanks]
  rfl

/-- A comment line without line feeds is a comment to its end exactly if no carriage return cuts it
short. -/
theorem isComment_write_iff {depth : Nat} {text : String} (htext : '\n' ∉ text.toList) :
    IsComment (write (.comment depth text)) ↔ '\r' ∉ text.toList := by
  have hplain : text.toList.dropWhile (!isBreak ·) = [] ↔ '\r' ∉ text.toList := by
    rw [List.dropWhile_eq_nil_iff]
    constructor
    · intro h hreturn
      cases h _ hreturn
    · intro h c hc
      have hfeed : c ≠ '\n' := fun heq => htext (heq ▸ hc)
      have hreturn : c ≠ '\r' := fun heq => h (heq ▸ hc)
      simp [isBreak, hfeed, hreturn]
  rw [IsComment, readComment_write, ← hplain]
  constructor
  · rintro ⟨body, h⟩
    exact (Prod.mk.inj (Option.some.inj h)).2
  · intro h
    exact ⟨_, by rw [h]⟩

end FileLine

/-! ## Pages with comments -/

/-- The first page is the second one with these lines of comment added. -/
structure Page.Annotates (page plain : Page) (texts : List String) : Prop where
  depth : page.depth = plain.depth
  lines : ∃ lines : List FileLine, page.lines = lines.map FileLine.write ∧
    plain.lines = lines.filterMap FileLine.code? ∧ texts = lines.filterMap FileLine.comment?

namespace Page.Annotates

variable {page plain : Page} {texts : List String} {lang : Language}

theorem empty : Annotates {} {} [] := ⟨rfl, [], rfl, rfl, rfl⟩

/-- The same line of code goes on both pages. -/
theorem line (h : page.Annotates plain texts) (text : String) :
    (page.line text).Annotates (plain.line text) texts := by
  obtain ⟨hdepth, lines, hpage, hplain, htexts⟩ := h
  refine ⟨hdepth, lines ++ [.code (if text.isEmpty then "" else indentation page.depth ++ text)],
    ?_, ?_, ?_⟩
  · rw [Page.line, hpage, List.map_append]
    rfl
  · rw [Page.line, hplain, List.filterMap_append, ← hdepth]
    rfl
  · rw [htexts, List.filterMap_append]
    exact (List.append_nil _).symm

/-- The same lines of code go on both pages. -/
theorem addLines (h : page.Annotates plain texts) (added : List String) :
    (page.addLines added).Annotates (plain.addLines added) texts := by
  induction added generalizing page plain with
  | nil => exact h
  | cons text added ih => exact ih (h.line text)

theorem blank (h : page.Annotates plain texts) : page.blank.Annotates plain.blank texts := h.line ""

theorem blank_if (h : page.Annotates plain texts) (p : Prop) [Decidable p] :
    (if p then page.blank else page).Annotates (if p then plain.blank else plain) texts := by
  split
  · exact h.blank
  · exact h

/-- Both pages go to the same depth. -/
theorem at_depth (h : page.Annotates plain texts) {d d' : Nat} (hd : d = d') :
    { page with depth := d }.Annotates { plain with depth := d' } texts := ⟨hd, h.lines⟩

/-- Both pages open a block. -/
theorem enter (h : page.Annotates plain texts) (opener : String) :
    (page.enter opener).Annotates (plain.enter opener) texts :=
  (h.line opener).at_depth (congrArg (· + 1) h.depth)

theorem leave (h : page.Annotates plain texts) (closer : String) :
    (page.leave closer).Annotates (plain.leave closer) texts :=
  (h.at_depth (congrArg (· - 1) h.depth)).line closer

/-- A block on both pages, with what is inside it. -/
theorem block (h : page.Annotates plain texts) {inside inside' : Page → Page}
    (hinside : ∀ {page plain : Page}, page.Annotates plain texts →
      (inside page).Annotates (inside' plain) texts) :
    (page.block lang inside).Annotates (plain.block lang inside') texts :=
  (hinside (h.enter lang.opening)).leave lang.closing

/-- A label is a line of code on both pages, or there is none. -/
theorem accessLabel (h : page.Annotates plain texts) (access : Access) :
    (page.accessLabel lang access).Annotates (plain.accessLabel lang access) texts := by
  unfold Page.accessLabel
  cases lang.accessLabel access with
  | none => exact h
  | some text => exact (h.leave text).at_depth h.depth

/-- Comments are added to one page only. -/
theorem comments (hlang : lang.commentLine = Language.comment) (h : page.Annotates plain texts)
    (text : String) : (page.comments lang text).Annotates plain (texts ++ textLines text) := by
  rw [Page.comments, hlang]
  generalize textLines text = added
  induction added generalizing page texts with
  | nil => rwa [List.append_nil]
  | cons t added ih =>
    have hline : (page.line (Language.comment t)).Annotates plain (texts ++ [t]) := by
      have hcomment : ¬ (Language.comment t).isEmpty = true := by
        simp [Language.comment]
      obtain ⟨hdepth, lines, hpage, hplain, htexts⟩ := h
      refine ⟨hdepth, lines ++ [.comment page.depth t], ?_, ?_, ?_⟩
      · rw [Page.line, hpage, List.map_append, if_neg hcomment]
        rfl
      · rw [hplain, List.filterMap_append]
        exact (List.append_nil _).symm
      · rw [htexts, List.filterMap_append]
        rfl
    have hall := ih hline
    rwa [List.append_assoc] at hall

end Page.Annotates

/-! ## Files with comments -/

/-- The same without text for people. -/
def Method.withoutText (m : Method) : Method := { m with description := none }

/-- The same methods without their descriptions. -/
def Instantiator.withoutText (i : Instantiator) : Instantiator :=
  { i with methods := i.methods.map Method.withoutText }

/-- The same with nothing in the header. -/
def CodeSettings.withoutText (settings : CodeSettings) : CodeSettings :=
  { settings with headerComment := settings.headerComment.map fun _ => "" }

/-- The texts that a file shows in comments, in order. -/
def Instantiator.commentTexts (i : Instantiator) (settings : CodeSettings) : List String :=
  settings.headerComment.toList ++ i.methods.filterMap (·.description)

namespace Language

variable {lang : Language} {page plain : Page} {texts : List String}

/-- The lines that return what is kept hold no comment. -/
theorem annotates_returnCached (h : page.Annotates plain texts) (m : Method) :
    (lang.returnCached m page).Annotates (lang.returnCached m plain) texts := by
  unfold returnCached
  cases m.field? with
  | none => exact h
  | some field => exact (h.line _).block fun h => h.line _

/-- A method has its description before it on one page, and nothing on the other. -/
theorem annotates_methodLines (hlang : lang.commentLine = comment) (h : page.Annotates plain texts)
    (m : Method) : (lang.methodLines page m).Annotates (lang.methodLines plain m.withoutText)
      (texts ++ m.description.toList.flatMap textLines) := by
  have hdescribed : (m.description.elim page.blank (page.blank.comments lang)).Annotates plain.blank
      (texts ++ m.description.toList.flatMap textLines) := by
    cases m.description with
    | none => simpa using h.blank
    | some text => simpa using h.blank.comments hlang text
  exact (hdescribed.line _).block fun h => ((annotates_returnCached h m).addLines _).line _

/-- The descriptions of all methods, in order. -/
theorem annotates_methods (hlang : lang.commentLine = comment) (h : page.Annotates plain texts)
    (methods : List Method) : (methods.foldl lang.methodLines page).Annotates
      ((methods.map Method.withoutText).foldl lang.methodLines plain)
      (texts ++ (methods.filterMap (·.description)).flatMap textLines) := by
  induction methods generalizing page plain texts with
  | nil => simpa using h
  | cons m methods ih =>
    have hall := ih (annotates_methodLines hlang h m)
    rw [List.append_assoc, ← List.flatMap_append] at hall
    cases hm : m.description with
    | none => simpa [hm] using hall
    | some text => simpa [hm] using hall

/-- Nothing but the descriptions of its methods is a comment in an instantiator. -/
theorem annotates_instantiatorLines (hlang : lang.commentLine = comment)
    (h : page.Annotates plain texts) (i : Instantiator) :
    (lang.instantiatorLines i page).Annotates (lang.instantiatorLines i.withoutText plain)
      (texts ++ (i.methods.filterMap (·.description)).flatMap textLines) := by
  have hcached : i.withoutText.methods.filter (·.isCached) =
      (i.methods.filter (·.isCached)).map Method.withoutText := List.filter_map
  unfold instantiatorLines
  simp only [hcached, List.map_map]
  refine (annotates_methods hlang (.accessLabel (.blank_if ?_ _) _) _).leave _
  -- from the method for the root back to the first line
  refine .block (.line (.blank ?_) _) fun h => h.line _
  refine .block (.line (.blank ?_) _) fun h => h.addLines _
  refine .block (.line (.accessLabel (.blank ?_) _) _) fun h => h.line _
  exact (((h.line _).enter _).line _).addLines _

/-- The header is on one page, and an empty line stands for it on the other. -/
theorem annotates_header (hlang : lang.commentLine = comment) (settings : CodeSettings) :
    (settings.headerComment.elim ({} : Page) fun text =>
      (Page.comments {} lang text).blank).Annotates
      (settings.withoutText.headerComment.elim {} fun text => (Page.comments {} lang text).blank)
      (settings.headerComment.toList.flatMap textLines) := by
  rw [CodeSettings.withoutText]
  cases settings.headerComment with
  | none => exact .empty
  | some text =>
    have hnothing : Page.comments {} lang "" = {} := rfl
    show (Page.comments {} lang text).blank.Annotates (Page.comments {} lang "").blank
      ([text].flatMap textLines)
    rw [hnothing, List.flatMap_singleton]
    exact (Page.Annotates.empty.comments hlang text).blank

/-- The lines before the two classes. -/
theorem annotates_adapter (lang : Language) (h : page.Annotates plain texts) :
    (lang.adapter.elim page fun lines => (page.addLines lines).blank).Annotates
      (lang.adapter.elim plain fun lines => (plain.addLines lines).blank) texts := by
  cases lang.adapter with
  | none => exact h
  | some lines => exact (h.addLines lines).blank

/-- **The comments of a file are added to it**: its other lines are those of the same file with
nothing to comment. -/
theorem composes_source (hlang : lang.commentLine = comment) (settings : CodeSettings)
    (i : Instantiator) : ∃ lines : List FileLine, FileLine.Composes lines (lang.source settings i)
      (lang.source settings.withoutText i.withoutText) (i.commentTexts settings) := by
  suffices h : ∃ page plain : Page,
      page.Annotates plain ((i.commentTexts settings).flatMap textLines) ∧
      lang.source settings i = page.text ∧
      lang.source settings.withoutText i.withoutText = plain.text by
    obtain ⟨page, plain, ⟨-, lines, hpage, hplain, htexts⟩, htext, htext'⟩ := h
    refine ⟨lines, ?_, ?_, htexts.symm⟩
    · rw [htext, Page.text, hpage, Page.text]
    · rw [htext', Page.text, hplain, Page.text]
  refine ⟨_, _, ?_, rfl, rfl⟩
  rw [Instantiator.commentTexts, List.flatMap_append]
  have hopened := annotates_adapter lang
    (((((annotates_header hlang settings).addLines lang.preamble).blank).line
      (lang.namespaceHead settings.namespaceName)).enter lang.opening)
  refine .leave (.leave ?_ _) _
  -- the instantiator stands inside the other class or before it
  cases lang.nestsInstantiator with
  | true =>
    refine annotates_instantiatorLines hlang (.blank ?_) i
    exact .block (.line (.accessLabel (.enter (.line hopened _) _) _) _) fun h => h.addLines _
  | false =>
    refine .block (.line (.accessLabel (.enter (.line (.blank ?_) _) _) _) _) fun h => h.addLines _
    exact annotates_instantiatorLines hlang hopened i

end Language

/-- The comment lines of a file are those with a text. -/
theorem FileLine.mem_comment_iff {lines : List FileLine} {text : String} :
    (∃ depth, .comment depth text ∈ lines) ↔ text ∈ lines.filterMap comment? := by
  rw [List.mem_filterMap]
  constructor
  · rintro ⟨depth, h⟩
    exact ⟨_, h, rfl⟩
  · rintro ⟨line, h, hline⟩
    cases line with
    | code t => cases hline
    | comment depth t =>
      cases hline
      exact ⟨depth, h⟩

namespace Scene

variable {s : Scene Float32} {names : Names} {settings : CodeSettings} {lang : Language}
  {code : GeneratedCode}

/-- Emitted code is made of lines of code and lines of comment. -/
theorem composes_of_emit (hlang : lang.commentLine = Language.comment)
    (h : s.emit names settings lang = .ok code) : ∃ lines : List FileLine,
      FileLine.Composes lines code.text
        (lang.source settings.withoutText code.instantiator.withoutText)
        (code.instantiator.commentTexts settings) := by
  obtain ⟨i, hi, h⟩ := exists_of_bind_ok h
  cases h
  exact Language.composes_source hlang settings i

/-- **Where comments end.**  Emitted code has the header and the descriptions in lines of comment,
and its other lines do not depend on them.  No comment line has a line feed in it, and to a reader
that ends lines at line feeds and carriage returns it is a comment up to its first carriage return.
So all of them are comments as a whole exactly if every carriage return in the texts stands before a
line feed. -/
theorem emit_comments (hlang : lang ∈ [.cSharp, .cppCx])
    (h : s.emit names settings lang = .ok code) : ∃ lines : List FileLine,
      FileLine.Composes lines code.text
        (lang.source settings.withoutText code.instantiator.withoutText)
        (code.instantiator.commentTexts settings) ∧
      (∀ depth text, .comment depth text ∈ lines → '\n' ∉ text.toList ∧
        readComment (FileLine.write (.comment depth text)).toList =
          some (' ' :: text.toList.takeWhile (!isBreak ·), text.toList.dropWhile (!isBreak ·))) ∧
      ((∀ depth text,
        .comment depth text ∈ lines → IsComment (FileLine.write (.comment depth text))) ↔
        ∀ text ∈ code.instantiator.commentTexts settings, returnsBreak text.toList = true) := by
  have hcomment : lang.commentLine = Language.comment := by
    simp only [List.mem_cons, List.not_mem_nil, or_false] at hlang
    rcases hlang with rfl | rfl <;> rfl
  obtain ⟨lines, hlines⟩ := composes_of_emit hcomment h
  have hfeed : ∀ depth text, .comment depth text ∈ lines → '\n' ∉ text.toList := by
    intro depth text hline
    have hmem := FileLine.mem_comment_iff.mp ⟨depth, hline⟩
    rw [hlines.comments] at hmem
    obtain ⟨t, -, ht⟩ := List.mem_flatMap.mp hmem
    exact (textLines_breaks t).1 text ht
  refine ⟨lines, hlines, fun depth text hline => ⟨hfeed _ _ hline, FileLine.readComment_write _ _⟩,
    ?_⟩
  -- line feeds never occur, so what ends a comment early is a carriage return
  calc (∀ depth text,
      .comment depth text ∈ lines → IsComment (FileLine.write (.comment depth text)))
      ↔ ∀ line ∈ lines.filterMap FileLine.comment?, '\r' ∉ line.toList := by
        constructor
        · intro hall line hline
          obtain ⟨depth, hline⟩ := FileLine.mem_comment_iff.mpr hline
          exact (FileLine.isComment_write_iff (hfeed _ _ hline)).mp (hall _ _ hline)
        · intro hall depth text hline
          exact (FileLine.isComment_write_iff (hfeed _ _ hline)).mpr
            (hall text (FileLine.mem_comment_iff.mp ⟨depth, hline⟩))
    _ ↔ ∀ text ∈ code.instantiator.commentTexts settings, ∀ line ∈ textLines text,
          '\r' ∉ line.toList := by
        rw [hlines.comments, List.forall_mem_flatMap]
    _ ↔ _ := forall₂_congr fun text _ => (textLines_breaks text).2

/-- A visual with a description. -/
def caption (text : String) : Scene Float32 where
  objects := #[
    { content := .containerVisual {} []
      attached := { shortDescription := some text } }]

/-- The instantiator of a visual with a description. -/
theorem caption_ofScene (text : String) :
    Instantiator.ofScene (caption text) (Names.ofScene (caption text)) = .ok {
      methods := [
        { object := ⟨0⟩
          name := "ContainerVisual"
          typeName := "ContainerVisual"
          isCached := false
          statements := [.create none (.compositor "CreateContainerVisual" [])]
          description := some text }]
      root := "ContainerVisual" } := by
  cbv

/-- A header and a description, with both kinds of breaks between lines. -/
theorem caption_comments : ∃ code lines,
    (caption "one\r\ntwo\nthree").emit (Names.ofScene (caption "one\r\ntwo\nthree"))
      { headerComment := some "zero" } .cppCx = .ok code ∧
    FileLine.Composes lines code.text (Language.cppCx.source { headerComment := some "" }
      code.instantiator.withoutText) ["zero", "one\r\ntwo\nthree"] ∧
    lines.filterMap FileLine.comment? = ["zero", "one", "two", "three"] ∧
    ∀ depth text,
      .comment depth text ∈ lines → IsComment (FileLine.write (.comment depth text)) := by
  have hemit := emit_of_ofScene (caption_ofScene "one\r\ntwo\nthree")
    { headerComment := some "zero" } .cppCx
  obtain ⟨lines, hlines, -, hall⟩ := emit_comments (by simp) hemit
  refine ⟨_, lines, hemit, hlines, ?_, hall.mpr ?_⟩
  · exact hlines.comments
  · decide

/-- A description with a carriage return in it: what follows is no longer a comment. -/
theorem caption_leaves_comment : ∃ (code : GeneratedCode) (lines : List FileLine) (depth : Nat),
    (caption "one\rtwo").emit (Names.ofScene (caption "one\rtwo")) {} .cSharp = .ok code ∧
    code.text = ({ lines := lines.map FileLine.write } : Page).text ∧
    .comment depth "one\rtwo" ∈ lines ∧
    readComment (FileLine.write (.comment depth "one\rtwo")).toList =
      some (" one".toList, "\rtwo".toList) ∧
    ¬ IsComment (FileLine.write (.comment depth "one\rtwo")) := by
  have hemit := emit_of_ofScene (caption_ofScene "one\rtwo") {} .cSharp
  obtain ⟨lines, hlines⟩ := composes_of_emit rfl hemit
  have hmem : "one\rtwo" ∈ lines.filterMap FileLine.comment? := by
    rw [hlines.comments]
    decide
  obtain ⟨depth, hline⟩ := FileLine.mem_comment_iff.mpr hmem
  refine ⟨_, lines, depth, hemit, hlines.file, hline, ?_, ?_⟩
  · rw [FileLine.readComment_write]
    decide
  · rw [FileLine.isComment_write_iff (by decide)]
    decide

end Scene
end Diorama
