/-
  Pages of generated code.

  A page is a list of lines and the depth at which the next one stands.  A level of depth is four
  blanks, and an empty line has none.

  `textLines` cuts a text for the page: a line feed ends a line, together with a carriage return
  right before it, and the end of the text ends the last one unless nothing is left.
-/

namespace Diorama

/-! ## Lines of a text -/

/-- A line without a carriage return at its end. -/
def dropReturn (line : List Char) : List Char :=
  if line.getLast? = some '\r' then line.dropLast else line

/-- The lines of a text; `line` is what the current line holds so far. -/
def textLinesFrom : List Char → List Char → List (List Char)
  | [], [] => []
  | line, [] => [line]
  | line, '\n' :: rest => dropReturn line :: textLinesFrom [] rest
  | line, c :: rest => textLinesFrom (line ++ [c]) rest

/-- The lines of a text. -/
def textLines (text : String) : List String := (textLinesFrom [] text.toList).map String.ofList

/-! ## Pages -/

/-- Lines, and the depth of the next one. -/
structure Page where
  lines : List String := []
  depth : Nat := 0

namespace Page

/-- Four blanks for every level. -/
def indentation (depth : Nat) : String := String.ofList (List.replicate (4 * depth) ' ')

/-- Adds a line at the current depth. -/
def line (page : Page) (text : String) : Page :=
  let indented := if text.isEmpty then "" else indentation page.depth ++ text
  { page with lines := page.lines ++ [indented] }

/-- Adds lines at the current depth. -/
def addLines (page : Page) (texts : List String) : Page := texts.foldl line page

/-- Adds an empty line. -/
def blank (page : Page) : Page := page.line ""

/-- Adds a line and indents what follows. -/
def enter (page : Page) (opener : String) : Page :=
  { page.line opener with depth := page.depth + 1 }

/-- Goes back a level and adds a line. -/
def leave (page : Page) (closer : String) : Page :=
  { page with depth := page.depth - 1 }.line closer

/-- Adds a line one level further out. -/
def label (page : Page) (text : String) : Page :=
  { page.leave text with depth := page.depth }

/-- The text of the page. -/
def text (page : Page) : String := String.join (page.lines.map (· ++ "\n"))

end Page
end Diorama
