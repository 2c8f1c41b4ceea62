/-
  Control characters in generated code.

  A literal escapes line feeds, carriage returns and tabs, and no other control character.  The
  others stand in it as they are: the control characters of a literal are the strays of its text
  (`Language.Neat.controls_text`).  Nothing else puts any into a statement, so the control
  characters in a method are the strays of the texts of its object, and a scene is written without
  any exactly if its texts have none (`Scene.emit_controls`).

  Some strays do harm.  C# ends a line at U+0085, and then the literal is not closed
  (`Scene.sign_breaks_line`).
-/
import Mathlib
import Diorama.Proofs.MethodCalls
import Diorama.Proofs.TextLiterals

namespace Diorama

/-! ## Control characters -/

/-- Whether a character is a control character, of either block. -/
def isControl (c : Char) : Bool := c.val ≤ 0x1F || (0x7F ≤ c.val && c.val ≤ 0x9F)

/-- Whether a character is a control character without an escape. -/
def isStray (c : Char) : Bool := isControl c && c ∉ ['\n', '\r', '\t']

/-- The control characters of a text, in order. -/
def controls (text : String) : List Char := text.toList.filter isControl

/-- The control characters of a text that have no escape, in order. -/
def strays (text : String) : List Char := text.toList.filter isStray

/-- Printable characters are no control characters. -/
theorem isControl_of_isInk {c : Char} (h : isInk c = true) : isControl c = false := by
  simp only [isInk, Bool.and_eq_true, decide_eq_true_eq] at h
  have hval : 32 ≤ c.val ∧ c.val ≤ 126 := h
  simp only [isControl, Bool.or_eq_false_iff, Bool.and_eq_false_iff, decide_eq_false_iff_not]
  grind

theorem controls_append (a b : String) : controls (a ++ b) = controls a ++ controls b := by
  rw [controls, String.toList_append, List.filter_append]
  rfl

theorem controls_of_isPrintable {text : String} (h : isPrintable text = true) :
    controls text = [] := by
  refine List.filter_eq_nil_iff.mpr fun c hc => ?_
  rw [isControl_of_isInk (List.all_eq_true.mp h c hc)]
  exact Bool.false_ne_true

/-! ## In literals -/

namespace Language

/-- Of one character, what is left after escaping is what has no escape. -/
theorem filter_escapeChar (c : Char) : (escapeChar c).filter isControl = [c].filter isStray := by
  unfold escapeChar
  split
  case h_6 _ _ hfeed hreturn htab =>
    have hplain : c ∉ ['\n', '\r', '\t'] := by
      simp only [List.mem_cons, List.not_mem_nil, or_false, not_or]
      exact ⟨hfeed, hreturn, htab⟩
    have hstray : isStray c = isControl c := by
      rw [isStray, decide_eq_true hplain, Bool.and_true]
    rw [List.filter_singleton, List.filter_singleton, hstray]
  all_goals rfl

/-- Of a text, what is left after escaping is what has no escape. -/
theorem filter_escaped (text : List Char) :
    (text.flatMap escapeChar).filter isControl = text.filter isStray := by
  induction text with
  | nil => rfl
  | cons c text ih =>
    rw [List.flatMap_cons, List.filter_append, filter_escapeChar, ih, ← List.filter_append,
      List.singleton_append]

/-- **A literal holds the strays of its text**, and no other control characters. -/
theorem Neat.controls_text {lang : Language} (hlang : lang.Neat) (text : String) :
    controls (lang.text text) = strays text := by
  obtain ⟨mark, hmark, htext⟩ := hlang.text
  have hquote : ∀ l : List Char, ('"' :: l ++ ['"']).filter isControl = l.filter isControl := by
    intro l
    rw [List.filter_append, List.filter_cons_of_neg (by decide)]
    exact List.append_nil _
  rw [htext, quoted, controls_append, controls_of_isPrintable hmark, List.nil_append, controls,
    String.toList_ofList, hquote, filter_escaped]
  rfl

end Language

/-! ## In statements -/

/-- Only the literals of a line hold control characters. -/
theorem Piece.controls_line {lang : Language} (hlang : lang.Neat) {name : ObjectId → String}
    (hname : ∀ id, isPrintable (name id) = true) {pieces : List Piece}
    (hfixed : ∀ t, .fixed t ∈ pieces → isPrintable t = true) :
    controls (line lang name pieces) = (pieces.filterMap literal?).flatMap strays := by
  induction pieces with
  | nil => rfl
  | cons piece pieces ih =>
    have hrest := ih fun t ht => hfixed t (List.mem_cons_of_mem _ ht)
    have hcons :
        line lang name (piece :: pieces) = piece.spell lang name ++ line lang name pieces := by
      rw [line, List.map_cons, String.join_cons]
      rfl
    rw [hcons, controls_append, hrest]
    cases piece with
    | fixed t =>
      rw [spell, controls_of_isPrintable (hfixed t List.mem_cons_self)]
      rfl
    | literal t =>
      rw [spell, hlang.controls_text]
      rfl
    | call id =>
      have hcall : isPrintable (name id ++ "()") = true := by
        rw [isPrintable_append, hname]
        rfl
      rw [spell, controls_of_isPrintable hcall]
      rfl

/-- Control characters in a text come from what it cites. -/
theorem Language.Cites.controls_eq {lang : Language} {ids : List ObjectId} {texts : List String}
    {text : (ObjectId → String) → String} (h : lang.Cites ids texts text) (hlang : lang.Neat)
    {name : ObjectId → String} (hname : ∀ id, isPrintable (name id) = true) :
    controls (text name) = texts.flatMap strays := by
  obtain ⟨pieces, -, rfl, hfixed, htext⟩ := h
  rw [htext, Piece.controls_line hlang hname hfixed]

namespace Method

variable {s : Scene Float32} {names : Names} {uses : Nat} {id : ObjectId} {o : Object Float32}
  {m : Method} {lang : Language}

/-- Control characters in a statement come from its texts. -/
theorem controls_statement (hlang : lang.Neat) (hnames : names.ArePrintable)
    (h : Method.ofObject s names uses id o = .ok m) {line : Statement}
    (hline : line ∈ m.statements) :
    controls (lang.statement line) = line.texts.flatMap strays := by
  obtain ⟨hlegible, hsame⟩ := statements_of_ofObject h hnames line hline
  have hcited : controls (lang.statement (line.named names.nameOf)) = line.texts.flatMap strays :=
    (hlang.cites_statement hlegible).controls_eq hlang hnames
  rwa [hsame] at hcited

/-- The literals of a method are the texts of its object. -/
theorem quoted_of_ofObject (h : Method.ofObject s names uses id o = .ok m) :
    Statement.quoted m.statements = s.literals o := by
  obtain ⟨name, -, h⟩ := exists_of_bind_ok h
  obtain ⟨body, hbody, h⟩ := exists_of_bind_ok h
  cases h
  rw [← Body.texts_ofObject hbody, Body.texts, Statement.quoted, List.flatMap_append,
    List.flatMap_cons, List.append_assoc]
  rfl

/-- The control characters of a method are the strays of the texts of its object. -/
theorem controls_write (hlang : lang.Neat) (hnames : names.ArePrintable)
    (h : Method.ofObject s names uses id o = .ok m) :
    (m.write lang).statements.flatMap controls = (s.literals o).flatMap strays := by
  have hlines : (m.write lang).statements.flatMap controls =
      m.statements.flatMap fun line => line.texts.flatMap strays := by
    rw [write, List.flatMap_map]
    exact List.flatMap_congr fun line hline => controls_statement hlang hnames h hline
  rw [hlines, ← quoted_of_ofObject h, Statement.quoted, List.flatMap_assoc]

end Method

/-! ## In emitted code -/

namespace Scene

variable {s : Scene Float32} {names : Names} {settings : CodeSettings} {lang : Language}
  {code : GeneratedCode}

/-- Emitted code has the methods of the objects that get one, as they are written. -/
theorem methods_of_emit (h : s.emit names settings lang = .ok code) :
    ∃ (ix : Index) (methods : List Method), ix.Sound s ∧
      ((Instantiator.made s ix).mapM fun e =>
        Method.ofObject s names (s.slotTargets.count e.1) e.1 e.2) = .ok methods ∧
      code.written = methods.map (Method.write lang) := by
  obtain ⟨i, hi, h⟩ := exists_of_bind_ok h
  cases h
  obtain ⟨ix, hix, hi⟩ := exists_of_bind_ok hi
  obtain ⟨methods, hmethods, hi⟩ := exists_of_bind_ok hi
  obtain ⟨root, -, hi⟩ := exists_of_bind_ok hi
  cases hi
  exact ⟨ix, methods, Index.sound_of_build hix, hmethods, rfl⟩

/-- Every method of emitted code is written for an object that gets one. -/
theorem exists_object_of_written (hlang : lang.Neat) (hnames : names.ArePrintable)
    (h : s.emit names settings lang = .ok code) {w : WrittenMethod} (hw : w ∈ code.written) :
    ∃ o, w.object ∈ s.reachable ∧ s.get? w.object = some o ∧ o.kind ≠ .animationController ∧
      w.statements.flatMap controls = (s.literals o).flatMap strays := by
  obtain ⟨ix, methods, hsound, hmethods, hwritten⟩ := methods_of_emit h
  rw [hwritten] at hw
  obtain ⟨m, hm, rfl⟩ := List.mem_map.mp hw
  obtain ⟨⟨id, o⟩, he, hmade⟩ := exists_of_mem_of_mapM_ok hmethods hm
  obtain ⟨hid, ho, -⟩ := (Instantiator.mem_made_iff hsound).mp he
  have hmakes := Method.makes_of_ofObject hmade
  obtain rfl : m.object = id := hmakes.object
  exact ⟨o, hsound.mem_ids_iff.mp hid, ho, hmakes.kind, Method.controls_write hlang hnames hmade⟩

/-- Every object that gets a method is written. -/
theorem exists_written_of_object (hlang : lang.Neat) (hnames : names.ArePrintable)
    (h : s.emit names settings lang = .ok code) {id : ObjectId} (hid : id ∈ s.reachable)
    {o : Object Float32} (ho : s.get? id = some o) (hkind : o.kind ≠ .animationController) :
    ∃ w ∈ code.written, w.statements.flatMap controls = (s.literals o).flatMap strays := by
  obtain ⟨ix, methods, hsound, hmethods, hwritten⟩ := methods_of_emit h
  have he : (id, o) ∈ Instantiator.made s ix :=
    (Instantiator.mem_made_iff hsound).mpr
      ⟨hsound.mem_ids_iff.mpr hid, ho, by simp [Instantiator.isMade, hkind]⟩
  obtain ⟨m, hm, hmade⟩ := exists_mem_of_mapM_ok hmethods he
  refine ⟨m.write lang, ?_, Method.controls_write hlang hnames hmade⟩
  rw [hwritten]
  exact List.mem_map_of_mem hm

/-- **Control characters of emitted code** in both languages.  The ones in a literal are the strays
of its text, and with the names of the scene itself the ones in a method are the strays of the texts
of its object.  So statements are free of control characters exactly if no text of an object that
gets a method has a stray. -/
theorem emit_controls {lang : Language} (hlang : lang ∈ [Language.cSharp, Language.cppCx]) :
    (∀ text, controls (lang.text text) = strays text) ∧
    ∀ (s : Scene Float32) (settings : CodeSettings) (code : GeneratedCode),
      s.emit (Names.ofScene s) settings lang = .ok code →
      (∀ m ∈ code.written, ∃ o, s.get? m.object = some o ∧
        m.statements.flatMap controls = (s.literals o).flatMap strays) ∧
      ((∀ m ∈ code.written, ∀ line ∈ m.statements, controls line = []) ↔
        ∀ id ∈ s.reachable, ∀ o, s.get? id = some o → o.kind ≠ .animationController →
          ∀ text ∈ s.literals o, strays text = []) := by
  have hneat := Language.neat_of_mem hlang
  refine ⟨hneat.controls_text, fun s settings code h => ?_⟩
  have hnames := Names.arePrintable_ofScene s
  refine ⟨fun m hm => ?_, fun hfree id hid o ho hkind => ?_, fun hfree m hm => ?_⟩
  · obtain ⟨o, -, ho, -, hcontrols⟩ := exists_object_of_written hneat hnames h hm
    exact ⟨o, ho, hcontrols⟩
  · obtain ⟨m, hm, hcontrols⟩ := exists_written_of_object hneat hnames h hid ho hkind
    rw [List.flatMap_eq_nil_iff.mpr (hfree m hm)] at hcontrols
    exact List.flatMap_eq_nil_iff.mp hcontrols.symm
  · obtain ⟨o, hid, ho, hkind, hcontrols⟩ := exists_object_of_written hneat hnames h hm
    rw [List.flatMap_eq_nil_iff.mpr (hfree _ hid o ho hkind)] at hcontrols
    exact List.flatMap_eq_nil_iff.mp hcontrols

/-- A visual with control characters in its comment, a property and the target of a paused
animation; tabs and line feeds among them. -/
def beacon : Scene Float32 where
  objects := #[
    { content := .containerVisual {} []
      attached := {
        comment := some "\x07ring\tring\n"
        properties := PropertyBag.empty.insert "size\u0085" (.boolean true)
        animators := [⟨"Opacity\x7f", ⟨1⟩, some ⟨2⟩⟩] } },
    { content := .expressionAnimation { expression := "1\r", target := some "\x00" } },
    { content := .animationController true }]

/-- The methods for the beacon; its controller has none. -/
theorem beacon_ofScene : Instantiator.ofScene beacon (Names.ofScene beacon) = .ok {
    methods := [
      { object := ⟨1⟩
        name := "ExpressionAnimation"
        typeName := "ExpressionAnimation"
        isCached := false
        statements := [
          .create none (.compositor "CreateExpressionAnimation" [.text "1\r"]),
          .set "Target" (.text "\x00")]
        description := none },
      { object := ⟨0⟩
        name := "ContainerVisual"
        typeName := "ContainerVisual"
        isCached := false
        statements := [
          .create none (.compositor "CreateContainerVisual" []),
          .set "Comment" (.text "\x07ring\tring\n"),
          .invoke (some "Properties") "InsertBoolean" [.text "size\u0085", .flag true],
          .invoke none "StartAnimation" [.text "Opacity\x7f", .call ⟨⟨1⟩, "ExpressionAnimation"⟩],
          .openScope,
          .findController "Opacity\x7f",
          .pauseController,
          .closeScope]
        description := none }]
    root := "ContainerVisual" } := by
  cbv

/-- The strays of the beacon are in its methods, the one of the animator twice, and the escaped
characters are not. -/
theorem beacon_controls : Language.cppCx ∈ [Language.cSharp, Language.cppCx] ∧
    ∃ code, beacon.emit (Names.ofScene beacon) {} .cppCx = .ok code ∧
      (∃ m ∈ code.written, m.object = ⟨0⟩ ∧
        m.statements.flatMap controls = ['\x07', '\u0085', '\x7f', '\x7f']) ∧
      ¬ ∀ m ∈ code.written, ∀ line ∈ m.statements, controls line = [] := by
  have hlang : Language.cppCx ∈ [Language.cSharp, Language.cppCx] := by simp
  have hemit := emit_of_ofScene beacon_ofScene {} .cppCx
  obtain ⟨hmethods, hfree⟩ := (emit_controls hlang).2 _ _ _ hemit
  refine ⟨hlang, _, hemit, ⟨_, List.mem_cons_of_mem _ List.mem_cons_self, rfl, ?_⟩, ?_⟩
  · obtain ⟨o, ho, hcontrols⟩ := hmethods _ (List.mem_cons_of_mem _ List.mem_cons_self)
    cases ho
    rw [hcontrols]
    decide
  · rw [hfree]
    intro hnone
    have hroot : (⟨0⟩ : ObjectId) ∈ beacon.reachable := by
      have hreachable : beacon.reachable = [⟨0⟩, ⟨1⟩, ⟨2⟩] := by cbv
      rw [hreachable]
      decide
    have hcomment := hnone _ hroot _ rfl (by decide) "\x07ring\tring\n" (by decide)
    exact absurd hcomment (by decide)

/-- A visual with a comment. -/
def sign (text : String) : Scene Float32 where
  objects := #[
    { content := .containerVisual {} []
      attached := { comment := some text } }]

/-- The method for the sign, whatever its text is. -/
theorem sign_ofScene (text : String) :
    Instantiator.ofScene (sign text) (Names.ofScene (sign text)) = .ok {
      methods := [
        { object := ⟨0⟩
          name := "ContainerVisual"
          typeName := "ContainerVisual"
          isCached := false
          statements := [
            .create none (.compositor "CreateContainerVisual" []),
            .set "Comment" (.text text)]
          description := none }]
      root := "ContainerVisual" } := by
  cbv

/-- A comment with a next line character in it, which stands in the statement as it is. -/
theorem sign_breaks_line : controls (Language.cSharp.text "one\u0085two") = ['\u0085'] ∧
    ∃ code m line, (sign "one\u0085two").emit (Names.ofScene (sign "one\u0085two")) {} .cSharp =
        .ok code ∧ m ∈ code.written ∧ line ∈ m.statements ∧
      line = "result.Comment = \"one\u0085two\";" ∧ '\u0085' ∈ line.toList ∧
      controls line ≠ [] := by
  have hemit := emit_of_ofScene (sign_ofScene "one\u0085two") {} .cSharp
  have hline : Language.cSharp.statement (.set "Comment" (.text "one\u0085two")) =
      "result.Comment = \"one\u0085two\";" := rfl
  refine ⟨by decide, _, _, _, hemit, List.mem_cons_self, List.mem_cons_of_mem _ List.mem_cons_self,
    hline, ?_, ?_⟩
  · rw [hline]
    decide
  · rw [hline]
    decide

end Scene
end Diorama
