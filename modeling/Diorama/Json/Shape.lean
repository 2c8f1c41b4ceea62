/-
  Taking typed parts out of JSON values.

  A reader of a type is a function `Json → Option α`, `none` where the value has another shape.  The
  members of an object are looked up by name: a name that a reader asks for may stand at most once,
  and names that nobody asks for are of no account.  Whole numbers are taken only if they are
  written as such and lie in the range of the word that holds them; a float takes any number.
-/
import Diorama.Json.Value

namespace Diorama.Json

/-! ## Single values -/

def bool? : Json → Option Bool
  | .bool b => some b
  | _ => none

def text? : Json → Option String
  | .text s => some s
  | _ => none

/-- A whole number from `lo` to `hi`. -/
def whole? (lo hi : Int) : Json → Option Int
  | .number (.whole n) => if lo ≤ n ∧ n ≤ hi then some n else none
  | _ => none

/-- A byte. -/
def uint8? (v : Json) : Option UInt8 := (v.whole? 0 255).map fun n => .ofNat n.toNat

/-- An unsigned word of 32 bits. -/
def uint32? (v : Json) : Option UInt32 := (v.whole? 0 0xFFFFFFFF).map fun n => .ofNat n.toNat

/-- A signed word of 32 bits. -/
def int32? (v : Json) : Option Int32 :=
  (v.whole? Int32.minValue.toInt Int32.maxValue.toInt).map Int32.ofInt

/-- A signed word of 64 bits. -/
def int64? (v : Json) : Option Int64 :=
  (v.whole? Int64.minValue.toInt Int64.maxValue.toInt).map Int64.ofInt

/-- A float. -/
def single? : Json → Option Float32
  | .number n => some n.toSingle
  | _ => none

/-! ## Compound values -/

/-- A value that may be `null`. -/
def orNull {α : Type} (read : Json → Option α) : Json → Option (Option α)
  | .null => some none
  | v => (read v).map some

/-- An array. -/
def listOf {α : Type} (read : Json → Option α) : Json → Option (List α)
  | .array items => items.mapM read
  | _ => none

/-- The members of an object. -/
def members? : Json → Option (List (String × Json))
  | .object members => some members
  | _ => none

/-- The value under a name, if there is one; the name may stand only once. -/
def member? (members : List (String × Json)) (name : String) : Option (Option Json) :=
  match members.filter fun m => m.1 = name with
  | [] => some none
  | [(_, v)] => some (some v)
  | _ => none

/-- The value under a name that has to be there. -/
def required {α : Type} (members : List (String × Json)) (name : String)
    (read : Json → Option α) : Option α :=
  match member? members name with
  | some (some v) => read v
  | _ => none

/-- The value under a name, or the given one if the name is missing. -/
def optional {α : Type} (members : List (String × Json)) (name : String) (missing : α)
    (read : Json → Option α) : Option α :=
  match member? members name with
  | some (some v) => read v
  | some none => some missing
  | none => none

/-! ## Writing -/

/-- A value that may be unset. -/
def ofOption {α : Type} (write : α → Json) : Option α → Json
  | none => .null
  | some a => write a

/-- A list of values. -/
def ofList {α : Type} (write : α → Json) (items : List α) : Json := .array (items.map write)

end Diorama.Json
