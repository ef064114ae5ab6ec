import RouteTree.Pattern.Basic
import RouteTree.Value.Display
import RouteTree.Value.Entries

/-! # Filling in a pattern

Given values by name, a pattern yields the segments it would match and the query fields for its
search names. Every parameter of the path needs a value; search names without one are left out.
-/

namespace RouteTree

/-- A parameter of the path for which no value was given. -/
structure MissingParameter where
  name : String
  deriving DecidableEq, Repr

def MissingParameter.message (error : MissingParameter) : String :=
  "Missing value for parameter " ++ Text.quoted error.name

/-- The segments and query fields of a filled-in pattern, not yet encoded. -/
structure Rendered where
  segments : List String
  query : List (String × String)
  deriving DecidableEq, Repr

/-- Fill in one segment. -/
def Segment.render (arguments : Entries) : Segment → Except MissingParameter String
  | .literal text => .ok text
  | .parameter name =>
    let value := arguments.valueOf name
    if value.isNull then .error ⟨name⟩ else .ok value.plain

namespace Pattern

/-- The query fields of one search name. -/
def queryFields (arguments : Entries) (name : String) : List (String × String) :=
  (arguments.valueOf name).plainItems.map fun text => (name, text)

/-- Fill in a pattern; the first parameter without a value is the error. -/
def render (pattern : Pattern) (arguments : Entries) : Except MissingParameter Rendered := do
  let segments ← pattern.segments.mapM (Segment.render arguments)
  return { segments, query := pattern.searchNames.flatMap (queryFields arguments) }

end Pattern

end RouteTree
