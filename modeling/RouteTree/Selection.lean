import RouteTree.Route
import RouteTree.Run

/-! # Selections

A traversal ends in an outcome: no match, a redirect, or the chain of the routes selected from the
start of the traversal down.
-/

namespace RouteTree

/-- How a selected route relates to the segments that it was offered. -/
inductive MatchKind where
  /-- The route consumed all of them. -/
  | index
  /-- The route consumed some of them and a child matched the others. -/
  | inner
  /-- The route consumed some of them, no child matched the others, and its outlet answers. -/
  | error
  deriving DecidableEq, Repr

/-- The public name of a kind of match. -/
def MatchKind.label : MatchKind → String
  | .index => "index"
  | .inner => "partial"
  | .error => "error"

/-- One route of a chain with what it was selected for. -/
structure Selection where
  route : RouteId
  kind : MatchKind
  request : Request
  values : List String
  groups : List Query.Group
  pattern : Option Pattern
  handler : Option Handler

/-- The parameters under which a route was selected. -/
def Selection.params (selection : Selection) : Params :=
  selection.request.params

/-- Call the handler of a selected route; a route without one replies with null. -/
def Selection.handle (selection : Selection) : Run Value :=
  match selection.handler with
  | none => pure .null
  | some handler => do
    Run.call (.handler selection.route selection.request)
    Run.reply (handler selection.request)

/-- How a traversal ends when no callback fails. -/
inductive Outcome where
  | noMatch
  | redirect (target : String)
  | chain (first : Selection) (rest : List Selection)

namespace Outcome

/-- The selections of a chain. -/
def selections : Outcome → List Selection
  | .chain first rest => first :: rest
  | _ => []

/-- Where a redirect goes. -/
def target? : Outcome → Option String
  | .redirect target => some target
  | _ => none

end Outcome

end RouteTree
