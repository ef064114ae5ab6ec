import RouteTree.Query.Basic
import RouteTree.Value.Display
import RouteTree.Value.Entries

/-! # Callbacks

A route may carry three functions of the application: an extractor that turns captured text into
parameters, a guard that decides whether the route may be selected, and a handler. All are functions
of their arguments that reply or fail; this module holds what they are given and what their replies
mean.
-/

namespace RouteTree

/-- The parameters of a request: a dictionary, or a query that is used as one. -/
inductive Params where
  | dict (entries : Entries)
  | query (source : Query)
  deriving Repr, Inhabited

namespace Params

/-- The parameters as entries of a dictionary; a query gives each name its first value. -/
def entries : Params → Entries
  | .dict entries => entries
  | .query source => source.items.map fun (name, value) => (name, .text value)

/-- The parameters themselves as a value. -/
def toValue : Params → Value
  | .dict entries => .dict entries
  | .query source => .query source

end Params

/-- What guards and handlers are given. -/
structure Request where
  context : Value
  params : Params
  deriving Repr, Inhabited

/-- Where routes look up search values: a query, or any other source of values by name. -/
inductive Search where
  | query (source : Query)
  | lookup (values : String → List String)

namespace Search

/-- All values of a name. -/
def getAll : Search → String → List String
  | .query source, name => source.getAll name
  | .lookup values, name => values name

/-- The first value of a name. -/
def get? (search : Search) (name : String) : Option String :=
  (search.getAll name).head?

/-- A source of search values as a value. -/
def toValue : Search → Value
  | .query source => .query source
  | .lookup _ => .lookup

end Search

/-- The failure that a callback reports by itself. -/
structure CallbackError where
  text : String
  deriving DecidableEq, Repr

/-- Why a traversal ends without an outcome. -/
inductive Failure where
  /-- A callback failed. -/
  | callback (error : CallbackError)
  /-- A guard returned something that decides nothing; `kind` names what it returned. -/
  | undecided (kind : String)
  deriving DecidableEq, Repr

def Failure.message : Failure → String
  | .callback error => error.text
  | .undecided kind =>
    "Guard must return a bool, a path string or a guard outcome, got " ++ kind

abbrev Guard := Request → Except CallbackError Value

abbrev Handler := Request → Except CallbackError Value

/-- An extractor is given the captured segments and the source of search values. -/
abbrev Extractor := List String → Search → Except CallbackError Value

namespace Value

/-- A truth value proceeds or rejects, a text redirects, an outcome is itself, and nothing else
decides. -/
def decision : Value → Except Failure GuardOutcome
  | .bool true => .ok .proceed
  | .bool false => .ok .reject
  | .text target => .ok (.redirect target)
  | .outcome decided => .ok decided
  | value => .error (.undecided value.kindName)

/-- The decision that a guard's reply stands for. Other kinds of values stand for none. -/
inductive StandsFor : Value → GuardOutcome → Prop
  | proceed : StandsFor (.bool true) .proceed
  | reject : StandsFor (.bool false) .reject
  | redirect (target : String) : StandsFor (.text target) (.redirect target)
  | itself (decided : GuardOutcome) : StandsFor (.outcome decided) decided

theorem decision_eq_ok_iff {value : Value} {decided : GuardOutcome} :
    value.decision = .ok decided ↔ value.StandsFor decided := by
  constructor
  · intro success
    cases value with
    | bool flag =>
      cases flag with
      | false =>
        cases success
        exact .reject
      | true =>
        cases success
        exact .proceed
    | text target =>
      cases success
      exact .redirect target
    | outcome =>
      cases success
      exact .itself decided
    | _ => simp [decision] at success
  · intro stands
    cases stands <;> rfl

/-- A reply that stands for no decision is refused with the name of its kind, and no other reply
is. -/
theorem decision_eq_error_iff {value : Value} {failure : Failure} :
    value.decision = .error failure ↔
      (∀ decided, ¬ value.StandsFor decided) ∧ failure = .undecided value.kindName := by
  simp only [← decision_eq_ok_iff]
  unfold decision
  split <;> simp [eq_comm]

/-- The parameters that an extractor's reply stands for: those of a dictionary or a query. -/
def params? : Value → Option Params
  | .dict entries => some (.dict entries)
  | .query source => some (.query source)
  | _ => none

/-- A reply stands for the parameters that it is as a value, and for no others. -/
theorem params?_eq_some_iff {value : Value} {params : Params} :
    value.params? = some params ↔ value = params.toValue := by
  cases value <;> cases params <;> simp [params?, Params.toValue]

end Value

end RouteTree
