/-
  Settings of the optimizer.

  All switches are off by default.
-/
import Diorama.Json.Read
import Diorama.Json.Shape

namespace Diorama

/-- What the optimizer may do. -/
structure OptimizerSettings where
  /-- Objects with comments or descriptions may be merged as well. -/
  ignoreComments : Bool := false
  /-- Properties that have their default value stay set. -/
  keepDefaults : Bool := false
  /-- The tree is left as it was copied. -/
  keepTree : Bool := false
deriving DecidableEq

namespace OptimizerSettings

def toJson (c : OptimizerSettings) : Json :=
  .object [("ignore_comments", .bool c.ignoreComments),
    ("disable_default_elision", .bool c.keepDefaults),
    ("disable_tree_reduction", .bool c.keepTree)]

def ofJson? (j : Json) : Option OptimizerSettings := do
  let m ← j.members?
  let ignoreComments ← Json.optional m "ignore_comments" false Json.bool?
  let keepDefaults ← Json.optional m "disable_default_elision" false Json.bool?
  let keepTree ← Json.optional m "disable_tree_reduction" false Json.bool?
  return { ignoreComments, keepDefaults, keepTree }

/-- The settings that a text stores. -/
def ofText (text : String) : Except JsonFault OptimizerSettings :=
  let names := ["ignore_comments", "disable_default_elision", "disable_tree_reduction"]
  Json.readAs { names := some names } ofJson? text

end OptimizerSettings
end Diorama
