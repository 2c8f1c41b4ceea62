/-
  JSON values to text.

  Two forms: `compact` has no blanks at all, `pretty` puts every item and member on a line of its
  own, two blanks deeper than its container; an empty container is written on the line where it
  stands.  A string escapes the quote, the backslash and the control characters, and nothing else.
  A number that is not whole has the layout `numberLayout`.
-/
import Diorama.Json.Value
import Diorama.Decimal.Layout

namespace Diorama

namespace Json

/-! ## Scalars -/

/-- Numbers are written out in full from `0.000001` up to thirteen digits before the point, and a
whole one ends in `.0`. -/
def numberLayout : Decimal.Layout := ⟨.toEven, fun weight => -6 ≤ weight ∧ weight ≤ 12, ".0"⟩

end Json

/-- A number as text. -/
def Numeral.write : Numeral → String
  | .whole n => (if n < 0 then "-" else "") ++ n.natAbs.repr
  | .scaled negative significand exponent =>
    (if negative then "-" else "") ++
      Decimal.Digits.write Json.numberLayout ⟨significand, exponent⟩

namespace Json

/-- A lower-case hexadecimal digit. -/
def hexChar (n : Nat) : Char := if n < 10 then Char.ofNat (48 + n) else Char.ofNat (87 + n)

/-- A character inside a string. -/
def escapeChar (c : Char) : List Char :=
  match c with
  | '"' => ['\\', '"']
  | '\\' => ['\\', '\\']
  | '\x08' => ['\\', 'b']
  | '\x0c' => ['\\', 'f']
  | '\n' => ['\\', 'n']
  | '\r' => ['\\', 'r']
  | '\t' => ['\\', 't']
  | c =>
    if c.toNat < 0x20 then ['\\', 'u', '0', '0', hexChar (c.toNat / 16), hexChar (c.toNat % 16)]
    else [c]

/-- A string with its quotes. -/
def quote (s : String) : String :=
  "\"" ++ String.ofList (s.toList.flatMap escapeChar) ++ "\""

/-! ## Values -/

mutual

/-- Without blanks. -/
def compact : Json → String
  | .null => "null"
  | .bool b => if b then "true" else "false"
  | .number n => n.write
  | .text s => quote s
  | .array items => "[" ++ ",".intercalate (compactItems items) ++ "]"
  | .object members => "\x7b" ++ ",".intercalate (compactMembers members) ++ "\x7d"

/-- The items of an array, each without blanks. -/
def compactItems : List Json → List String
  | [] => []
  | v :: rest => compact v :: compactItems rest

/-- The members of an object, each without blanks. -/
def compactMembers : List (String × Json) → List String
  | [] => []
  | (key, v) :: rest => (quote key ++ ":" ++ compact v) :: compactMembers rest

end

/-- A line break and the blanks of a depth. -/
def newline (depth : Nat) : String := "\n" ++ String.ofList (List.replicate (2 * depth) ' ')

/-- Lines at a depth, with a comma between them, in brackets that stand one level out. -/
def bracketed (left right : String) (depth : Nat) (lines : List String) : String :=
  left ++ newline (depth + 1) ++ ("," ++ newline (depth + 1)).intercalate lines ++
    newline depth ++ right

mutual

/-- On lines of its own; `depth` is the level of the line that the value starts on. -/
def prettyAt (depth : Nat) : Json → String
  | .null => "null"
  | .bool b => if b then "true" else "false"
  | .number n => n.write
  | .text s => quote s
  | .array [] => "[]"
  | .array (v :: rest) =>
    bracketed "[" "]" depth (prettyAt (depth + 1) v :: prettyItems (depth + 1) rest)
  | .object [] => "\x7b\x7d"
  | .object ((key, v) :: rest) =>
    bracketed "\x7b" "\x7d" depth
      ((quote key ++ ": " ++ prettyAt (depth + 1) v) :: prettyMembers (depth + 1) rest)

/-- The items of an array. -/
def prettyItems (depth : Nat) : List Json → List String
  | [] => []
  | v :: rest => prettyAt depth v :: prettyItems depth rest

/-- The members of an object. -/
def prettyMembers (depth : Nat) : List (String × Json) → List String
  | [] => []
  | (key, v) :: rest => (quote key ++ ": " ++ prettyAt depth v) :: prettyMembers depth rest

end

/-- The value with its items and members on lines of their own. -/
def pretty (v : Json) : String := prettyAt 0 v

end Json
end Diorama
