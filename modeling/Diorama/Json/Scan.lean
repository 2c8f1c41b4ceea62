/-
  JSON text to tokens.

  The scanner goes from character to character: `Scan` is what it has seen of the token it is in,
  and every character gives the next state and the tokens that it completes.  So scanning a text
  that is put together from pieces is scanning the pieces one after the other.

  A token may be read for its value or only skimmed.  The scanner keeps to the form that both need
  and hands on what only a reading cares about: whether every surrogate of a string has its partner,
  and how large a numeral is.

  A token that cannot be completed becomes `Token.broken`, which remembers how it began: the reader
  must still find out whether a token of that kind may stand there at all, since then the text is
  wrong for an earlier reason.  No reader goes on after it.  Its fault may differ for a reading and
  for skimming: a numeral that the end of the text cuts off is unfinished to the one and wrong to
  the other, and a string that is cut off is wrong to a reading if a surrogate has lost its partner
  before.

  Rules of the format kept here:

    * a string holds no control character;
    * a numeral is the longest run of digits, signs, points and exponent marks; it keeps the digits
      that fit a 64-bit word, further whole digits raise the exponent, further decimals are dropped.
-/
import Diorama.Json.Value

namespace Diorama

/-- How a token begins that cannot be completed. -/
inductive TokenStart where
  | text
  | scalar
deriving DecidableEq

/-- A JSON token. -/
inductive Token where
  | openObject
  | closeObject
  | openArray
  | closeArray
  | colon
  | comma
  | null
  | bool (b : Bool)
  | number (n : Numeral)
  /-- A string; none if a surrogate in it has no partner. -/
  | text (s : Option String)
  /-- A token that cannot be completed, and what is wrong for a reading and for skimming. -/
  | broken (start : TokenStart) (reading skimming : JsonFault)
deriving DecidableEq

/-! ## Numerals -/

namespace Numeral

/-- The whole number that digits spell, for as long as it fits a 64-bit word, and how many digits
are left over. -/
def takeDigits : Nat → List Char → Nat × Nat
  | n, [] => (n, 0)
  | n, c :: cs =>
    let next := n * 10 + (c.toNat - 48)
    if next < UInt64.size then takeDigits next cs else (n, cs.length + 1)

/-- The number with these digits before and after the point and this exponent. -/
def assemble (negative : Bool) (front decimals : List Char) (exponent : Int) : Numeral :=
  let (n, lost) := takeDigits 0 front
  let (m, dropped) := if lost = 0 then takeDigits n decimals else (n, decimals.length)
  .scaled negative m (exponent + lost - (decimals.length - dropped : Nat))

/-- The number with these digits and neither point nor exponent. -/
def assembleWhole (negative : Bool) (digits : List Char) : Numeral :=
  match takeDigits 0 digits, negative with
  | (n, 0), false => .whole n
  | (n, 0), true => if 0 < n ∧ 2 * n ≤ UInt64.size then .whole (-n) else .scaled true n 0
  | (n, lost + 1), _ => .scaled negative n (lost + 1)

/-- What a run of numeral characters spells. -/
inductive Reading where
  | complete (n : Numeral)
  /-- The run ends where a digit has to follow. -/
  | unfinished
  | invalid

/-- The exponent after its mark. -/
def readExponent (finish : Int → Numeral) (run : List Char) : Reading :=
  let (negative, digits) := match run with
    | '-' :: rest => (true, rest)
    | '+' :: rest => (false, rest)
    | rest => (false, rest)
  match digits.span Char.isDigit with
  | ([], []) => .unfinished
  | ([], _) => .invalid
  | (ds, []) =>
    let magnitude : Nat := ds.foldl (fun n c => n * 10 + (c.toNat - 48)) 0
    .complete (finish (if negative then -magnitude else magnitude))
  | _ => .invalid

/-- The run after its sign. -/
def readUnsigned (negative : Bool) (run : List Char) : Reading :=
  match run.span Char.isDigit with
  | ([], []) => .unfinished
  | ([], _) => .invalid
  | ('0' :: _ :: _, _) => .invalid
  | (front, []) => .complete (assembleWhole negative front)
  | (front, '.' :: rest) =>
    match rest.span Char.isDigit with
    | ([], []) => .unfinished
    | ([], _) => .invalid
    | (decimals, []) => .complete (assemble negative front decimals 0)
    | (decimals, c :: rest) =>
      if c = 'e' ∨ c = 'E' then readExponent (assemble negative front decimals) rest else .invalid
  | (front, c :: rest) =>
    if c = 'e' ∨ c = 'E' then readExponent (assemble negative front []) rest else .invalid

/-- The whole run. -/
def read : List Char → Reading
  | '-' :: rest => readUnsigned true rest
  | run => readUnsigned false run

/-- Whether a numeral may hold the character. -/
def isPart (c : Char) : Bool :=
  c.isDigit || c = '-' || c = '+' || c = '.' || c = 'e' || c = 'E'

end Numeral

/-- The token of a run of numeral characters; `last` says that the text ends with it. -/
def Token.ofNumeral (run : List Char) (last : Bool) : Token :=
  match Numeral.read run with
  | .complete n => .number n
  | .unfinished => .broken .scalar (if last then .truncated else .malformed) .malformed
  | .invalid => .broken .scalar .malformed .malformed

/-! ## Strings -/

/-- The units that a string spells, last first: a character, or one half of a surrogate pair. -/
abbrev TextUnits := List Nat

namespace TextUnits

/-- Whether a unit is the first half of a surrogate pair. -/
def isHigh (u : Nat) : Bool := 0xD800 ≤ u ∧ u ≤ 0xDBFF

/-- Whether a unit is the second half of a surrogate pair. -/
def isLow (u : Nat) : Bool := 0xDC00 ≤ u ∧ u ≤ 0xDFFF

/-- The character of a surrogate pair. -/
def pair (high low : Nat) : Char := Char.ofNat (0x10000 + (high - 0xD800) * 0x400 + (low - 0xDC00))

/-- The characters of some units in front of others; none if a surrogate has no partner. -/
def chars? : TextUnits → List Char → Option (List Char)
  | [], after => some after
  | low :: high :: before, after =>
    if isLow low then
      if isHigh high then chars? before (pair high low :: after) else none
    else if isHigh low then none
    else chars? (high :: before) (Char.ofNat low :: after)
  | [u], after => if isLow u || isHigh u then none else some (Char.ofNat u :: after)

/-- The string of some units. -/
def text? (units : TextUnits) : Option String := (chars? units []).map String.ofList

/-- Whether a surrogate has lost its partner, whatever comes next. -/
def isUnpaired : TextUnits → Bool
  | [] => false
  | u :: before => (chars? (if isHigh u then before else u :: before) []).isNone

/-- The token of a string that the end of the text cuts off. -/
def cutOff (units : TextUnits) : Token :=
  .broken .text (if isUnpaired units then .malformed else .truncated) .truncated

end TextUnits

/-! ## States -/

/-- What has been read of the current token. -/
inductive Scan where
  | idle
  /-- A word of which these letters are still to come. -/
  | word (rest : List Char) (token : Token)
  /-- A run of numeral characters, last first. -/
  | numeral (run : List Char)
  | text (units : TextUnits)
  /-- After a backslash. -/
  | escape (units : TextUnits)
  /-- Inside a numeric escape. -/
  | unicode (units : TextUnits) (digits : List Char)

namespace Scan

/-- The end of scanning at a token that cannot be completed. -/
def stop (start : TokenStart) : Scan × List Token :=
  (.idle, [.broken start .malformed .malformed])

/-- Outside any token. -/
def start (c : Char) : Scan × List Token :=
  match c with
  | ' ' | '\n' | '\r' | '\t' => (.idle, [])
  | '\x7b' => (.idle, [.openObject])
  | '\x7d' => (.idle, [.closeObject])
  | '[' => (.idle, [.openArray])
  | ']' => (.idle, [.closeArray])
  | ':' => (.idle, [.colon])
  | ',' => (.idle, [.comma])
  | '"' => (.text [], [])
  | 't' => (.word ['r', 'u', 'e'] (.bool true), [])
  | 'f' => (.word ['a', 'l', 's', 'e'] (.bool false), [])
  | 'n' => (.word ['u', 'l', 'l'] .null, [])
  | c => if c.isDigit || c = '-' then (.numeral [c], []) else stop .scalar

/-- The value of a hexadecimal digit. -/
def hexDigit? (c : Char) : Option Nat :=
  if '0' ≤ c ∧ c ≤ '9' then some (c.toNat - 48)
  else if 'a' ≤ c ∧ c ≤ 'f' then some (c.toNat - 87)
  else if 'A' ≤ c ∧ c ≤ 'F' then some (c.toNat - 55)
  else none

/-- The value of four hexadecimal digits. -/
def hex4? (digits : List Char) : Option Nat :=
  match digits.mapM hexDigit? with
  | some [a, b, c, d] => some (((a * 16 + b) * 16 + c) * 16 + d)
  | _ => none

/-- One character. -/
def step : Scan → Char → Scan × List Token
  | .idle, c => start c
  | .word (l :: rest) token, c =>
    if c = l then
      if rest.isEmpty then (.idle, [token]) else (.word rest token, [])
    else stop .scalar
  | .word [] _, _ => stop .scalar
  | .numeral run, c =>
    if Numeral.isPart c then (.numeral (c :: run), [])
    else
      let (next, tokens) := start c
      (next, .ofNumeral run.reverse false :: tokens)
  | .text units, c =>
    if c = '"' then (.idle, [.text units.text?])
    else if c = '\\' then (.escape units, [])
    else if c.toNat < 0x20 then stop .text
    else (.text (c.toNat :: units), [])
  | .escape units, c =>
    match c with
    | '"' | '\\' | '/' => (.text (c.toNat :: units), [])
    | 'b' => (.text (0x08 :: units), [])
    | 'f' => (.text (0x0C :: units), [])
    | 'n' => (.text (0x0A :: units), [])
    | 'r' => (.text (0x0D :: units), [])
    | 't' => (.text (0x09 :: units), [])
    | 'u' => (.unicode units [], [])
    | _ => stop .text
  | .unicode units digits, c =>
    -- four bytes must follow, whatever they hold, before their value is looked at
    let digits := digits ++ [c]
    if (String.ofList digits).utf8ByteSize < 4 then (.unicode units digits, [])
    else
      match hex4? digits with
      | some u => (.text (u :: units), [])
      | none => stop .text

/-- The tokens that the end of the text completes. -/
def finish : Scan → List Token
  | .idle => []
  | .word _ _ => [.broken .scalar .truncated .truncated]
  | .numeral run => [.ofNumeral run.reverse true]
  | .text units => [units.cutOff]
  | .escape units => [units.cutOff]
  | .unicode units _ => [units.cutOff]

end Scan
end Diorama
