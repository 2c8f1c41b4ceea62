/-
  JSON text to a value.

  The reader goes from token to token.  Its state is the stack of containers that are open and what
  may come next; a finished value goes to the innermost open container, or, if there is none, is the
  answer.  `Json.read` is one fold over the characters of a text: each goes through the scanner, and
  the tokens that it completes through the reader.

  A `JsonScope` says what of a text is wanted.  A member of the outermost object that is not wanted
  is skimmed: its text has to have the form of a value, but it may be nested to any depth, and what
  its numbers and strings stand for is of no account.  It is not part of the answer.  Everything
  else is read: containers are nested to the depth of the scope at most, a number has to fit double
  precision, and every surrogate in a string needs its partner.

  The first token that may not stand where it stands makes the text malformed.  A broken token where
  a token of its kind may stand gives its own fault.
-/
import Diorama.Json.Scan

namespace Diorama

/-- What of a text is wanted. -/
structure JsonScope where
  /-- The wanted members of the outermost object; all of them if there is no list. -/
  names : Option (List String) := none
  /-- How many containers may be open at once. -/
  depth : Nat := 127

/-- Whether a member of the outermost object is wanted. -/
def JsonScope.wants (scope : JsonScope) (name : String) : Bool :=
  scope.names.all fun names => names.contains name

/-- An open container; what it holds so far stands last first. -/
inductive JsonFrame where
  | array (items : List Json)
  | object (members : List (String × Json)) (key : String)

/-- What may come next. -/
inductive JsonNext where
  /-- A value. -/
  | value
  /-- The first item of an array, or its end. -/
  | item
  /-- A comma, or the end of the innermost container. -/
  | more
  /-- The first name of an object, or its end. -/
  | member (members : List (String × Json))
  /-- A name. -/
  | name (members : List (String × Json))
  /-- The colon after a name. -/
  | colon (members : List (String × Json)) (key : String)
  /-- Nothing: the value is read. -/
  | done (v : Json)

/-- The open containers, innermost first, and what may come next. -/
structure JsonReader where
  stack : List JsonFrame
  next : JsonNext

namespace JsonReader

/-- Before the first token. -/
def start : JsonReader := ⟨[], .value⟩

/-- Whether what comes next inside these containers is skimmed. -/
def skims (scope : JsonScope) (stack : List JsonFrame) : Bool :=
  match stack.getLast? with
  | some (.object _ key) => !scope.wants key
  | _ => false

/-- A finished value. -/
def deliver (scope : JsonScope) (stack : List JsonFrame) (v : Json) : JsonReader :=
  match stack with
  | [] => ⟨[], .done v⟩
  | .array items :: rest => ⟨.array (v :: items) :: rest, .more⟩
  | .object members key :: rest =>
    let kept := if rest.isEmpty && !scope.wants key then members else (key, v) :: members
    ⟨.object kept key :: rest, .more⟩

/-- The token begins a value. -/
def value (scope : JsonScope) (stack : List JsonFrame) (token : Token) :
    Except JsonFault JsonReader :=
  let skimming := skims scope stack
  match token with
  | .null => .ok (deliver scope stack .null)
  | .bool b => .ok (deliver scope stack (.bool b))
  | .number n =>
    if skimming || n.toDouble?.isSome then .ok (deliver scope stack (.number n))
    else .error .malformed
  | .text (some s) => .ok (deliver scope stack (.text s))
  | .text none => if skimming then .ok (deliver scope stack .null) else .error .malformed
  | .openArray =>
    if skimming || stack.length < scope.depth then .ok ⟨.array [] :: stack, .item⟩
    else .error .malformed
  | .openObject =>
    if skimming || stack.length < scope.depth then .ok ⟨stack, .member []⟩ else .error .malformed
  | .broken _ reading asSkimmed => .error (if skimming then asSkimmed else reading)
  | _ => .error .malformed

/-- The token is the name of a member. -/
def name (scope : JsonScope) (stack : List JsonFrame) (members : List (String × Json))
    (token : Token) : Except JsonFault JsonReader :=
  let skimming := skims scope stack
  match token with
  | .text (some s) => .ok ⟨stack, .colon members s⟩
  | .text none => if skimming then .ok ⟨stack, .colon members ""⟩ else .error .malformed
  | .broken .text reading asSkimmed => .error (if skimming then asSkimmed else reading)
  | _ => .error .malformed

/-- One token. -/
def step (scope : JsonScope) (r : JsonReader) (token : Token) : Except JsonFault JsonReader :=
  match r.next with
  | .value => value scope r.stack token
  | .item =>
    match token, r.stack with
    | .closeArray, .array items :: rest => .ok (deliver scope rest (.array items.reverse))
    | token, stack => value scope stack token
  | .more =>
    match token, r.stack with
    | .comma, .array _ :: _ => .ok ⟨r.stack, .value⟩
    | .comma, .object members _ :: rest => .ok ⟨rest, .name members⟩
    | .closeArray, .array items :: rest => .ok (deliver scope rest (.array items.reverse))
    | .closeObject, .object members _ :: rest =>
      .ok (deliver scope rest (.object members.reverse))
    | _, _ => .error .malformed
  | .member members =>
    match token with
    | .closeObject => .ok (deliver scope r.stack (.object members.reverse))
    | token => name scope r.stack members token
  | .name members => name scope r.stack members token
  | .colon members key =>
    match token with
    | .colon => .ok ⟨.object members key :: r.stack, .value⟩
    | _ => .error .malformed
  | .done _ => .error .malformed

/-- The value after the last token. -/
def finish (r : JsonReader) : Except JsonFault Json :=
  match r.next with
  | .done v => .ok v
  | _ => .error .truncated

end JsonReader

namespace Json

/-- One character: through the scanner, and what it completes through the reader. -/
def feed (scope : JsonScope) (state : Scan × JsonReader) (c : Char) :
    Except JsonFault (Scan × JsonReader) := do
  let (scan, tokens) := state.1.step c
  return (scan, ← tokens.foldlM (JsonReader.step scope) state.2)

/-- The value that a text spells. -/
def read (scope : JsonScope) (text : String) : Except JsonFault Json := do
  let (scan, reader) ← text.toList.foldlM (feed scope) (.idle, .start)
  (← scan.finish.foldlM (JsonReader.step scope) reader).finish

/-- What a text spells, as a value of another type. -/
def readAs {α : Type} (scope : JsonScope) (take : Json → Option α) (text : String) :
    Except JsonFault α := do
  match take (← read scope text) with
  | some a => .ok a
  | none => .error .wrongShape

end Json
end Diorama
