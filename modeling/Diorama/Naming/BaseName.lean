/-
  What an object would be called if it were alone.

  Most objects are called by their kind.  A brush is called by its colour, and an animation of a
  scalar or a colour with one or two key frames by its first and last value.  Names are identifiers:
  letters, digits and underscores.
-/
import Diorama.Decimal.Layout
import Diorama.Object.Content

namespace Diorama

/-! ## Fragments of names -/

/-- A number in upper-case hexadecimal digits, at least `width` of them. -/
def hexText (width n : Nat) : String :=
  let digits := (Nat.toDigits 16 n).map Char.toUpper
  String.ofList (List.replicate (width - digits.length) '0' ++ digits)

/-- Colours with a name. -/
def namedColors : List (Nat × String) :=
  [(0xFF000000, "Black"), (0xFFFFFFFF, "White"), (0xFFFF0000, "Red"), (0xFF008000, "Green"),
    (0xFF00FF00, "Lime"), (0xFF0000FF, "Blue"), (0xFFFFFF00, "Yellow"), (0xFF00FFFF, "Cyan"),
    (0xFFFF00FF, "Magenta"), (0xFF808080, "Gray"), (0xFFFFA500, "Orange"),
    (0x00FFFFFF, "Transparent")]

/-- The name of a colour, or its channels in hexadecimal. -/
def Color.name (c : Color) : String := (namedColors.lookup c.pack).getD (hexText 8 c.pack)

/-- Characters without a run of one of them at the end. -/
def dropTrailing (c : Char) (cs : List Char) : List Char :=
  (cs.reverse.dropWhile (· = c)).reverse

/-- A number with three decimal places at most, in the characters of a name: `m` for minus and `p`
for the point. -/
def nameFragment (x : Float32) : String :=
  let exact := (Decimal.places 3 x).toList
  let short := if exact.contains '.' then dropTrailing '.' (dropTrailing '0' exact) else exact
  let signed := if short = ['-', '0'] then ['0'] else short
  String.ofList (signed.map fun c => if c = '-' then 'm' else if c = '.' then 'p' else c)

/-- A value in the characters of a name, if it is a scalar or a colour. -/
def KeyFrameValue.fragment? : KeyFrameValue Float32 → Option String
  | .scalar x => some (nameFragment x)
  | .color c => some c.name
  | _ => none

/-! ## Base names -/

/-- The first and the last value of an animation that is named after them. -/
def KeyFrameAnimation.endFragments? (a : KeyFrameAnimation Float32) : Option (String × String) :=
  if a.kind = .scalar ∨ a.kind = .color then
    match a.frames with
    | [only] => only.value.fragment?.map fun f => (f, f)
    | [first, last] => do return (← first.value.fragment?, ← last.value.fragment?)
    | _ => none
  else none

/-- The name of an animation before objects of the same name are told apart. -/
def KeyFrameAnimation.baseName (a : KeyFrameAnimation Float32) : String :=
  match a.endFragments? with
  | some (first, last) => a.kind.name ++ "Animation_" ++ first ++ "_to_" ++ last
  | none => a.kind.name ++ "KeyFrameAnimation"

/-- The name of an object before objects of the same name are told apart. -/
def Object.baseName (o : Object Float32) : String :=
  match o.content with
  | .colorBrush (some c) => "ColorBrush_" ++ c.name
  | .keyFrameAnimation a => a.baseName
  | _ => o.kind.label

end Diorama
