/-
  What the lines of a method are made of.

  In a neat language a line is a row of pieces: printable text that is fixed, literals of the texts
  in the statement, and its calls, each once and in order.  The names of other objects stand in the
  calls and nowhere else, so the pieces are the same whatever the objects are called
  (`Language.Cites`).  Both languages are neat.
-/
import Mathlib
import Diorama.Code.CSharp
import Diorama.Code.CppCx
import Diorama.Proofs.BaseNames
import Diorama.Proofs.JsonScanning
import Diorama.Proofs.StatementViews

namespace Diorama

/-! ## Printable texts -/

/-- A text in two parts is printable if both parts are. -/
@[simp] theorem isPrintable_append (a b : String) :
    isPrintable (a ++ b) = (isPrintable a && isPrintable b) := by
  rw [isPrintable, String.toList_append, List.all_append]
  rfl

/-- Letters and digits are ink. -/
theorem isInk_of_isAlphanum {c : Char} (h : c.isAlphanum = true) : isInk c = true := by
  simp only [Char.isAlphanum, Char.isAlpha, Char.isUpper, Char.isLower, Char.isDigit,
    Bool.or_eq_true, decide_eq_true_eq, Bool.and_eq_true] at h
  have hval : 32 ≤ c.val ∧ c.val ≤ 126 := by grind
  simp only [isInk, Bool.and_eq_true, decide_eq_true_eq]
  exact hval

/-- Words of letters and digits are printable. -/
theorem isPrintable_of_isWord {text : String} (h : IsWord text.toList) : isPrintable text = true :=
  List.all_eq_true.mpr fun c hc => isInk_of_isAlphanum (h c hc)

/-- What a number is written with is printable: digits, signs, a point and an exponent. -/
theorem isPrintable_of_isRun {text : String} (h : Numeral.IsRun text.toList) :
    isPrintable text = true := by
  refine List.all_eq_true.mpr fun c hc => ?_
  have hpart := h c hc
  simp only [Numeral.isPart, Bool.or_eq_true, decide_eq_true_eq] at hpart
  rcases hpart with ((((hdigit | rfl) | rfl) | rfl) | rfl) | rfl
  · exact isInk_of_isAlphanum (by rw [Char.isAlphanum, hdigit, Bool.or_true])
  all_goals rfl

/-- Whole numbers are printable. -/
theorem isPrintable_repr (n : Int) : isPrintable n.repr = true := by
  cases n with
  | ofNat m => exact isPrintable_of_isRun (Numeral.isRun_repr m)
  | negSucc m =>
    rw [Int.repr, isPrintable_append, isPrintable_of_isRun (Numeral.isRun_repr _)]
    rfl

/-- Hexadecimal digits are printable. -/
theorem isPrintable_hexText (width n : Nat) : isPrintable (hexText width n) = true := by
  have hdigit : ∀ d < 16, (Nat.digitChar d).toUpper.isAlphanum = true := by decide
  refine isPrintable_of_isWord fun c hc => ?_
  obtain ⟨d, hd, rfl⟩ := mem_hexText hc
  exact hdigit d hd

namespace Language

/-- A scalar written out in full is printable, whatever whole numbers end in. -/
theorem isPrintable_digits {layout : Decimal.Layout} (hfull : ∀ weight, layout.inFull weight = true)
    (hend : Numeral.IsRun layout.wholeEnd.toList) (x : Float32) :
    isPrintable (digits layout x) = true := by
  refine isPrintable_of_isRun ?_
  rw [digits, Decimal.write, String.toList_append, Numeral.isRun_append, Decimal.Digits.write,
    if_pos (hfull _)]
  exact ⟨Numeral.isRun_sign _, Decimal.Digits.isRun_full _ hend⟩

/-- Arguments are separated by commas and blanks. -/
theorem isPrintable_arguments {items : List String} (h : ∀ t ∈ items, isPrintable t = true) :
    isPrintable (arguments items) = true := by
  induction items with
  | nil => rfl
  | cons item items ih =>
    obtain ⟨hitem, hitems⟩ := List.forall_mem_cons.mp h
    cases items with
    | nil => simpa [arguments] using hitem
    | cons next items =>
      have hrest := ih hitems
      rw [arguments] at hrest ⊢
      rw [String.intercalate_cons_cons, isPrintable_append, isPrintable_append, hitem, hrest]
      rfl

/-- A constructor with printable arguments. -/
theorem isPrintable_applied {constructor : String} {args : List String}
    (hconstructor : isPrintable constructor = true) (hargs : ∀ t ∈ args, isPrintable t = true) :
    isPrintable (applied constructor args) = true := by
  simp only [applied, isPrintable_append, hconstructor, isPrintable_arguments hargs]
  rfl

/-! ## Neat languages -/

/-- Puts a text between two printable ones. -/
def IsFrame (frame : String → String) : Prop :=
  ∃ head tail, isPrintable head = true ∧ isPrintable tail = true ∧
    ∀ text, frame text = head ++ text ++ tail

/-- A language whose spellings are printable and pass on what they are given, once. -/
structure Neat (lang : Language) : Prop where
  null : isPrintable lang.null = true
  flag : ∀ b, isPrintable (lang.flagText b) = true
  number : ∀ x, isPrintable (lang.number x) = true
  integer : ∀ n, isPrintable (lang.integer n) = true
  /-- A literal holds the text in quotes, behind a mark. -/
  text : ∃ mark, isPrintable mark = true ∧ ∀ s, lang.text s = quoted mark s
  timeSpan : ∀ ticks, isPrintable (lang.timeSpan ticks) = true
  vector2 : ∀ v, isPrintable (lang.vector2Text v) = true
  vector3 : ∀ v, isPrintable (lang.vector3Text v) = true
  vector4 : ∀ v, isPrintable (lang.vector4Text v) = true
  matrix3x2 : ∀ m, isPrintable (lang.matrix3x2Text m) = true
  matrix4x4 : ∀ m, isPrintable (lang.matrix4x4Text m) = true
  color : ∀ c, isPrintable (lang.colorText c) = true
  variableWord : isPrintable lang.variableWord = true
  newObject : ∀ type, isPrintable type = true → ∃ frame, IsFrame frame ∧
    ∀ args, lang.newObject type args = frame (arguments args)
  newArray : ∀ type, isPrintable type = true → ∃ frame, IsFrame frame ∧
    ∀ items, lang.newArray type items = frame (arguments items)
  memberMark : isPrintable lang.memberMark = true
  staticMark : isPrintable lang.staticMark = true
  choice : ∀ type value, isPrintable type = true → isPrintable value = true →
    isPrintable (lang.choice type value) = true
  addVerb : isPrintable lang.addVerb = true
  geometrySource : IsFrame lang.geometrySource
  opening : isPrintable lang.opening = true
  closing : isPrintable lang.closing = true

/-- Numbers that are not finite have names, and the others have digits and a suffix. -/
theorem isPrintable_cSharpNumber (x : Float32) : isPrintable (cSharpNumber x) = true := by
  unfold cSharpNumber
  split
  · rfl
  · split
    · split <;> rfl
    · rw [isPrintable_append,
        isPrintable_digits (fun _ => rfl) (by simp [Numeral.IsRun, Decimal.Layout.plain])]
      rfl

/-- A vector or a matrix is a constructor with numbers. -/
theorem isPrintable_cSharpTuple {type : String} (htype : isPrintable type = true)
    (xs : List Float32) : isPrintable (cSharpTuple type xs) = true := by
  refine isPrintable_applied (by rw [isPrintable_append, htype]; rfl) fun t ht => ?_
  obtain ⟨x, -, rfl⟩ := List.mem_map.mp ht
  exact isPrintable_cSharpNumber x

/-- In C++/CX the names are macros, and the suffix is another one. -/
theorem isPrintable_cppCxNumber (x : Float32) : isPrintable (cppCxNumber x) = true := by
  unfold cppCxNumber
  split
  · rfl
  · split
    · split <;> rfl
    · rw [isPrintable_append,
        isPrintable_digits (fun _ => rfl) (by simp [Numeral.IsRun, Numeral.isPart])]
      rfl

theorem isPrintable_cppCxTuple {type : String} (htype : isPrintable type = true)
    (xs : List Float32) : isPrintable (cppCxTuple type xs) = true := by
  refine isPrintable_applied htype fun t ht => ?_
  obtain ⟨x, -, rfl⟩ := List.mem_map.mp ht
  exact isPrintable_cppCxNumber x

/-- The four channels of a colour, in hexadecimal. -/
theorem isPrintable_channels (c : Color) : ∀ t ∈ channels c, isPrintable t = true := by
  intro t ht
  obtain ⟨x, -, rfl⟩ := List.mem_map.mp ht
  rw [isPrintable_append, isPrintable_hexText]
  rfl

theorem isPrintable_flag (b : Bool) : isPrintable (flag b) = true := by
  cases b <;> rfl

/-- **C# spells in printable characters whatever is not a text of the scene.** -/
theorem neat_cSharp : cSharp.Neat where
  null := rfl
  flag := isPrintable_flag
  number := isPrintable_cSharpNumber
  integer := isPrintable_repr
  text := ⟨"", rfl, fun _ => rfl⟩
  timeSpan ticks := by
    simp only [cSharp, isPrintable_append, isPrintable_repr]
    rfl
  vector2 v := isPrintable_cSharpTuple rfl v.toList
  vector3 v := isPrintable_cSharpTuple rfl v.toList
  vector4 v := isPrintable_cSharpTuple rfl v.toList
  matrix3x2 m := isPrintable_cSharpTuple rfl m.toList
  matrix4x4 m := isPrintable_cSharpTuple rfl m.toList
  color c := isPrintable_applied rfl (isPrintable_channels c)
  variableWord := rfl
  newObject type htype := by
    refine ⟨_, ⟨"new " ++ type ++ "(", ")", ?_, rfl, fun _ => rfl⟩, fun _ => rfl⟩
    rw [isPrintable_append, isPrintable_append, htype]
    rfl
  newArray type htype := by
    refine ⟨_, ⟨"new " ++ type ++ "[] \x7b ", " \x7d", ?_, rfl, fun _ => rfl⟩, fun _ => rfl⟩
    rw [isPrintable_append, isPrintable_append, htype]
    rfl
  memberMark := rfl
  staticMark := rfl
  choice type value htype hvalue := by
    show isPrintable (type ++ "." ++ value) = true
    rw [isPrintable_append, isPrintable_append, htype, hvalue]
    rfl
  addVerb := rfl
  geometrySource :=
    ⟨"", "", rfl, rfl, fun text => by rw [String.append_empty, String.empty_append]; rfl⟩
  opening := rfl
  closing := rfl

/-- **C++/CX spells in printable characters whatever is not a text of the scene.** -/
theorem neat_cppCx : cppCx.Neat where
  null := rfl
  flag := isPrintable_flag
  number := isPrintable_cppCxNumber
  integer n := by
    simp only [cppCx]
    split
    · exact isPrintable_repr n
    · rw [isPrintable_append, isPrintable_repr]
      rfl
  text := ⟨"L", rfl, fun _ => rfl⟩
  timeSpan ticks := by
    simp only [cppCx, isPrintable_append, isPrintable_repr]
    rfl
  vector2 v := isPrintable_cppCxTuple rfl v.toList
  vector3 v := isPrintable_cppCxTuple rfl v.toList
  vector4 v := isPrintable_cppCxTuple rfl v.toList
  matrix3x2 m := isPrintable_cppCxTuple rfl m.toList
  matrix4x4 m := isPrintable_cppCxTuple rfl m.toList
  color c := isPrintable_applied rfl (isPrintable_channels c)
  variableWord := rfl
  newObject type htype := by
    refine ⟨_, ⟨"ref new " ++ type ++ "(", ")", ?_, rfl, fun _ => rfl⟩, fun _ => rfl⟩
    rw [isPrintable_append, isPrintable_append, htype]
    rfl
  newArray type htype := by
    refine ⟨_, ⟨"ref new Platform::Array<" ++ type ++ "^>(\x7b ", " \x7d)", ?_, rfl, fun _ => rfl⟩,
      fun _ => rfl⟩
    rw [isPrintable_append, isPrintable_append, htype]
    rfl
  memberMark := rfl
  staticMark := rfl
  choice type value htype hvalue := by
    show isPrintable (type ++ "::" ++ value) = true
    rw [isPrintable_append, isPrintable_append, htype, hvalue]
    rfl
  addVerb := rfl
  geometrySource := ⟨"CanvasGeometryToIGeometrySource2D(", ")", rfl, rfl, fun _ => rfl⟩
  opening := rfl
  closing := rfl

end Language

/-! ## Pieces of a line -/

/-- A piece of a line. -/
inductive Piece where
  | fixed (text : String)
  /-- A literal of a text. -/
  | literal (text : String)
  /-- A call of the method that makes an object. -/
  | call (object : ObjectId)

namespace Piece

/-- A piece in a language, under the names that objects have. -/
def spell (lang : Language) (name : ObjectId → String) : Piece → String
  | .fixed text => text
  | .literal text => lang.text text
  | .call object => name object ++ "()"

/-- The object that a piece calls for. -/
def callee? : Piece → Option ObjectId
  | .call object => some object
  | _ => none

/-- The text that a piece is a literal of. -/
def literal? : Piece → Option String
  | .literal text => some text
  | _ => none

/-- A line from its pieces. -/
def line (lang : Language) (name : ObjectId → String) (pieces : List Piece) : String :=
  String.join (pieces.map (spell lang name))

end Piece

namespace Language

variable {lang : Language}

/-- A text, under any names, is a row of printable text, literals of these texts and calls for these
objects. -/
def Cites (lang : Language) (ids : List ObjectId) (texts : List String)
    (text : (ObjectId → String) → String) : Prop :=
  ∃ pieces : List Piece, pieces.filterMap Piece.callee? = ids ∧
    pieces.filterMap Piece.literal? = texts ∧ (∀ t, .fixed t ∈ pieces → isPrintable t = true) ∧
    ∀ name, text name = Piece.line lang name pieces

namespace Cites

variable {ids ids' : List ObjectId} {texts texts' : List String}
  {text text' : (ObjectId → String) → String}

/-- A text that is fixed cites nothing. -/
theorem fixed {t : String} (h : isPrintable t = true) : lang.Cites [] [] fun _ => t := by
  refine ⟨[.fixed t], rfl, rfl, fun u hu => ?_, fun _ => ?_⟩
  · obtain rfl : u = t := by simpa using hu
    exact h
  · simp [Piece.line, Piece.spell]

/-- A literal cites its text. -/
theorem literal (s : String) : lang.Cites [] [s] fun _ => lang.text s :=
  ⟨[.literal s], rfl, rfl, by simp, fun _ => by simp [Piece.line, Piece.spell]⟩

/-- A call cites an object by the name it is given. -/
theorem call (id : ObjectId) : lang.Cites [id] [] fun name => name id ++ "()" :=
  ⟨[.call id], rfl, rfl, by simp, fun _ => by simp [Piece.line, Piece.spell]⟩

/-- One text after the other cites what both cite, in order. -/
theorem append (h : lang.Cites ids texts text) (h' : lang.Cites ids' texts' text') :
    lang.Cites (ids ++ ids') (texts ++ texts') fun name => text name ++ text' name := by
  obtain ⟨pieces, rfl, rfl, hfixed, htext⟩ := h
  obtain ⟨pieces', rfl, rfl, hfixed', htext'⟩ := h'
  refine ⟨pieces ++ pieces', List.filterMap_append, List.filterMap_append, fun t ht => ?_,
    fun name => ?_⟩
  · exact (List.mem_append.mp ht).elim (hfixed t) (hfixed' t)
  · show text name ++ text' name = _
    rw [htext, htext', Piece.line, Piece.line, Piece.line, List.map_append, String.join_append]

/-- Only what a text comes out as matters. -/
theorem of_eq (h : lang.Cites ids texts text) (heq : ∀ name, text' name = text name) :
    lang.Cites ids texts text' := by
  rwa [funext heq]

/-- A fixed text at the end adds nothing to cite. -/
theorem followed {tail : String} (h : lang.Cites ids texts text) (htail : isPrintable tail = true) :
    lang.Cites ids texts fun name => text name ++ tail := by
  have hall := h.append (fixed htail)
  rwa [List.append_nil, List.append_nil] at hall

/-- Printable text on both sides. -/
theorem between {head tail : String} (hhead : isPrintable head = true)
    (h : lang.Cites ids texts text) (htail : isPrintable tail = true) :
    lang.Cites ids texts fun name => head ++ text name ++ tail :=
  ((fixed hhead).append h).followed htail

/-- What stands in a frame is cited as it is outside. -/
theorem frame {f : String → String} (hf : IsFrame f) (h : lang.Cites ids texts text) :
    lang.Cites ids texts fun name => f (text name) := by
  obtain ⟨head, tail, hhead, htail, hf⟩ := hf
  exact (h.between hhead htail).of_eq fun _ => hf _

/-- Arguments with commas between them. -/
theorem arguments {α : Type} {item : α → (ObjectId → String) → String} {ids : α → List ObjectId}
    {texts : α → List String} {l : List α} (h : ∀ a ∈ l, lang.Cites (ids a) (texts a) (item a)) :
    lang.Cites (l.flatMap ids) (l.flatMap texts) fun name =>
      Language.arguments (l.map fun a => item a name) := by
  induction l with
  | nil => exact fixed rfl
  | cons a l ih =>
    obtain ⟨hitem, hitems⟩ := List.forall_mem_cons.mp h
    cases l with
    | nil => simpa [Language.arguments] using hitem
    | cons b l =>
      have hcomma : lang.Cites (ids a) (texts a) fun name => item a name ++ ", " :=
        hitem.followed rfl
      show lang.Cites (ids a ++ (b :: l).flatMap ids) (texts a ++ (b :: l).flatMap texts) _
      simpa only [Language.arguments, List.map_cons, String.intercalate_cons_cons] using
        hcomma.append (ih hitems)

end Cites

namespace Neat

variable (h : lang.Neat)

include h

/-- The member of an object is printable if both names are. -/
theorem member {object name : String} (hobject : isPrintable object = true)
    (hname : isPrintable name = true) : isPrintable (lang.member object name) = true := by
  rw [Language.member, isPrintable_append, isPrintable_append, hobject, h.memberMark, hname]
  rfl

theorem staticMember {type name : String} (htype : isPrintable type = true)
    (hname : isPrintable name = true) : isPrintable (lang.staticMember type name) = true := by
  rw [Language.staticMember, isPrintable_append, isPrintable_append, htype, h.staticMark, hname]
  rfl

/-- An argument cites a call or a literal, or it is printable. -/
theorem cites_argument {a : Argument} (hwords : a.words.all isPrintable = true) :
    lang.Cites (a.calls.map (·.object)) a.texts fun name => lang.argument (a.named name) := by
  cases a with
  | flag b => exact .fixed (h.flag b)
  | number x => exact .fixed (h.number x)
  | integer n => exact .fixed (h.integer n)
  | text s => exact .literal s
  | timeSpan ticks => exact .fixed (h.timeSpan ticks)
  | vector2 v => exact .fixed (h.vector2 v)
  | vector3 v => exact .fixed (h.vector3 v)
  | vector4 v => exact .fixed (h.vector4 v)
  | matrix3x2 m => exact .fixed (h.matrix3x2 m)
  | matrix4x4 m => exact .fixed (h.matrix4x4 m)
  | color c => exact .fixed (h.color c)
  | choice type member =>
    simp only [Argument.words, List.all_cons, List.all_nil, Bool.and_true,
      Bool.and_eq_true] at hwords
    exact .fixed (h.choice type member hwords.1 hwords.2)
  | call c => exact .call c.object

/-- The invocation of a method cites what its arguments cite, in order. -/
theorem cites_invocation {object method : String} {args : List Argument}
    (hobject : isPrintable object = true) (hmethod : isPrintable method = true)
    (hwords : (args.flatMap Argument.words).all isPrintable = true) :
    lang.Cites ((args.flatMap Argument.calls).map (·.object))
      (args.flatMap Argument.texts) fun name =>
      lang.invocation object method (args.map (·.named name)) := by
  have hargs : ∀ a ∈ args,
      lang.Cites (a.calls.map (·.object)) a.texts fun name => lang.argument (a.named name) := by
    intro a ha
    refine h.cites_argument (List.all_eq_true.mpr fun w hw => ?_)
    exact List.all_eq_true.mp hwords w (List.mem_flatMap.mpr ⟨a, ha, hw⟩)
  have hhead : isPrintable (lang.member object method ++ "(") = true := by
    rw [isPrintable_append, h.member hobject hmethod]
    rfl
  have hclose : isPrintable ")" = true := rfl
  rw [List.map_flatMap]
  refine ((Cites.arguments hargs).between hhead hclose).of_eq fun name => ?_
  rw [invocation, List.map_map]
  rfl

/-- A declaration puts printable words around its value. -/
theorem cites_declare {ids : List ObjectId} {texts : List String}
    {value : (ObjectId → String) → String} {word : String}
    (hword : isPrintable word = true) (hvalue : lang.Cites ids texts value) :
    lang.Cites ids texts fun name => lang.declare word (value name) := by
  have hhead : isPrintable (lang.variableWord ++ " " ++ word ++ " = ") = true := by
    simp only [isPrintable_append, h.variableWord, hword]
    rfl
  exact hvalue.between hhead rfl

/-- A creation cites what its arguments cite. -/
theorem cites_creation {creation : Creation} (hwords : creation.words.all isPrintable = true) :
    lang.Cites (creation.calls.map (·.object)) creation.texts fun name =>
      lang.creation (creation.named name) := by
  cases creation with
  | compositor method args =>
    simp only [Creation.words, List.all_cons, Bool.and_eq_true] at hwords
    exact h.cites_invocation rfl hwords.1 hwords.2
  | path source =>
    obtain ⟨frame, hframe, hnew⟩ := h.newObject "CompositionPath" rfl
    simp only [Language.creation, Creation.named, hnew]
    refine .frame hframe ?_
    cases source with
    | none =>
      show lang.Cites [] [] fun _ => Language.arguments [lang.null]
      simpa [Language.arguments] using Cites.fixed h.null
    | some c =>
      show lang.Cites [c.object] [] fun name =>
        Language.arguments [lang.geometrySource (name c.object ++ "()")]
      simpa [Language.arguments] using (Cites.call c.object).frame h.geometrySource
  | built =>
    have hcreate :
        isPrintable (lang.staticMember "CanvasGeometry" "CreatePath" ++ "(builder)") = true := by
      rw [isPrintable_append, h.staticMember rfl rfl]
      rfl
    exact .fixed hcreate
  | group geometries fillMode =>
    obtain ⟨frame, hframe, hnew⟩ := h.newArray "CanvasGeometry" rfl
    have hmode : isPrintable (lang.fillModeText fillMode) = true := by
      refine h.choice _ _ rfl ?_
      cases fillMode <;> rfl
    have hstatic : isPrintable (lang.staticMember "CanvasGeometry" "CreateGroup") = true :=
      h.staticMember rfl rfl
    have hhead :
        isPrintable (lang.staticMember "CanvasGeometry" "CreateGroup" ++ "(" ++ lang.null ++
        ", ") = true := by
      simp only [isPrintable_append, hstatic, h.null]
      rfl
    have htail : isPrintable (", " ++ lang.fillModeText fillMode ++ ")") = true := by
      simp only [isPrintable_append, hmode]
      rfl
    have hcalls : lang.Cites (geometries.map (·.object)) [] fun name =>
        Language.arguments (geometries.map fun c => name c.object ++ "()") := by
      have hcall : ∀ c ∈ geometries, lang.Cites [c.object] [] fun name => name c.object ++ "()" :=
        fun c _ => .call c.object
      have hall := Cites.arguments hcall
      rwa [← List.map_eq_flatMap, List.flatMap_eq_nil_iff.mpr fun _ _ => rfl] at hall
    refine ((hcalls.frame hframe).between hhead htail).of_eq fun name => ?_
    simp only [Language.creation, Creation.named, hnew, Language.arguments, List.map_map,
      String.intercalate_cons_cons, String.intercalate_singleton, String.append_assoc]
    rfl
  | transformed source matrix =>
    have htail : isPrintable (lang.memberMark ++ "Transform" ++ "(" ++ lang.matrix3x2Text matrix ++
        ")") = true := by
      simp only [isPrintable_append, h.memberMark, h.matrix3x2]
      rfl
    refine ((Cites.call source.object).append (.fixed htail)).of_eq fun name => ?_
    simp only [Language.creation, Creation.named, Language.member, callText, Call.named,
      String.append_assoc]

/-- **A statement is a row of pieces**: printable text, its literals and its calls. -/
theorem cites_statement {line : Statement} (hlegible : line.isLegible = true) :
    lang.Cites (line.calls.map (·.object)) line.texts fun name =>
      lang.statement (line.named name) := by
  have hresult : isPrintable resultName = true := rfl
  have hbuilder : isPrintable "builder" = true := rfl
  have hcontroller : isPrintable "controller" = true := rfl
  have hmargin : isPrintable "    " = true := rfl
  simp only [Statement.isLegible] at hlegible
  cases line with
  | newBuilder =>
    obtain ⟨frame, hframe, hnew⟩ := h.newObject "CanvasPathBuilder" rfl
    have hnull : lang.Cites [] [] fun _ => Language.arguments [lang.null] := by
      simpa [Language.arguments] using Cites.fixed h.null
    refine (h.cites_declare hbuilder (hnull.frame hframe)).of_eq fun name => ?_
    rw [← hnew]
    rfl
  | build method args =>
    simp only [Statement.words, List.all_cons, Bool.and_eq_true] at hlegible
    exact (h.cites_invocation hbuilder hlegible.1 hlegible.2).followed rfl
  | create field creation =>
    simp only [Statement.words, List.all_append, Bool.and_eq_true] at hlegible
    have hfield : isPrintable (field.elim "" fun f => f ++ " = ") = true := by
      cases field with
      | none => rfl
      | some f =>
        rw [Option.elim_some, isPrintable_append, List.all_eq_true.mp hlegible.1 f (by simp)]
        rfl
    exact h.cites_declare hresult ((Cites.fixed hfield).append (h.cites_creation hlegible.2))
  | set property value =>
    simp only [Statement.words, List.all_cons, Bool.and_eq_true] at hlegible
    have hhead : isPrintable (lang.member resultName property ++ " = ") = true := by
      rw [isPrintable_append, h.member hresult hlegible.1]
      rfl
    exact (h.cites_argument hlegible.2).between hhead rfl
  | append collection value =>
    simp only [Statement.words, List.all_cons, Bool.and_eq_true] at hlegible
    have hwords : ([value].flatMap Argument.words).all isPrintable = true := by
      rw [List.flatMap_singleton]
      exact hlegible.2
    have hcites := h.cites_invocation (h.member hresult hlegible.1) h.addVerb hwords
    rw [List.flatMap_singleton, List.flatMap_singleton] at hcites
    exact hcites.followed rfl
  | invoke part method args =>
    simp only [Statement.words, List.all_append, List.all_cons, Bool.and_eq_true] at hlegible
    have hobject : isPrintable (part.elim resultName fun p => lang.member resultName p) = true := by
      cases part with
      | none => exact hresult
      | some p => exact h.member hresult (List.all_eq_true.mp hlegible.1 p (by simp))
    exact (h.cites_invocation hobject hlegible.2.1 hlegible.2.2).followed rfl
  | openScope => exact .fixed h.opening
  | findController target =>
    have hwords : ([Argument.text target].flatMap Argument.words).all isPrintable = true := rfl
    have hmethod : isPrintable "TryGetAnimationController" = true := rfl
    exact (Cites.fixed hmargin).append
      (h.cites_declare hcontroller (h.cites_invocation hresult hmethod hwords))
  | pauseController =>
    have hwords : (([] : List Argument).flatMap Argument.words).all isPrintable = true := rfl
    have hmethod : isPrintable "Pause" = true := rfl
    exact (h.cites_invocation hcontroller hmethod hwords).between hmargin rfl
  | closeScope => exact .fixed h.closing

end Neat
end Language
end Diorama
