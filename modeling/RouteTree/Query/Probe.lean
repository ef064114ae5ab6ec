import RouteTree.Query.Basic
import RouteTree.Value.Basic

/-! # Asking a query

A probe is one question to a query. Two of them can be refused: asking for the item of an absent
name, and any attempt to change the query.
-/

namespace RouteTree.Query

/-- One question to a query. -/
inductive Probe where
  /-- The first value of a name, or the given one when the name is absent. -/
  | get (name : String) (otherwise : Value)
  /-- All values of a name. -/
  | getAll (name : String)
  /-- The first value of a name that has to be present. -/
  | item (name : String)
  /-- Whether a name is present. -/
  | contains (name : String)
  /-- Whether another query has the same items. -/
  | equal (other : Query)
  /-- Give the query a new field. -/
  | assign (field : String)

/-- Why a probe is refused. -/
inductive ProbeError where
  | absent (name : String)
  | immutable
  deriving DecidableEq, Repr

def ProbeError.message : ProbeError → String
  | .absent name => Text.quoted name
  | .immutable => "QueryParams is immutable"

/-- The first value of a name that has to be present. -/
def item (query : Query) (name : String) : Except ProbeError String :=
  match query.get? name with
  | some value => .ok value
  | none => .error (.absent name)

/-- The first value of a name, or `otherwise`. -/
def getD (query : Query) (name : String) (otherwise : Value) : Value :=
  match query.get? name with
  | some value => .text value
  | none => otherwise

/-- Answer a question. -/
def answer (query : Query) : Probe → Except ProbeError Value
  | .get name otherwise => .ok (query.getD name otherwise)
  | .getAll name => .ok (.list ((query.getAll name).map .text))
  | .item name => (query.item name).map .text
  | .contains name => .ok (.bool (query.contains name))
  | .equal other => .ok (.bool (query.sameItems other))
  | .assign _ => .error .immutable

end RouteTree.Query
