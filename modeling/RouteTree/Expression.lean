import RouteTree.Route

/-! # Callbacks written as expressions

An expression describes a callback as data. Guards and handlers evaluate theirs against a request,
extractors against the captured segments and the source of search values; what a place does not
offer is null there. Evaluation fails only where the expression says so.
-/

namespace RouteTree

inductive Expression where
  | constant (value : Value)
  /-- A parameter of the request. -/
  | param (name : String)
  /-- The parameters of the request themselves. -/
  | params
  /-- A key of the context, if the context is a dictionary. -/
  | context (key : String)
  /-- A captured segment by its position. -/
  | captured (position : Int)
  /-- The first value of a search name, or the given value. -/
  | first (name : String) (otherwise : Value)
  /-- All values of a search name. -/
  | all (name : String)
  /-- The source of search values itself. -/
  | search
  | equal (left right : Expression)
  /-- The second expression if the first is exactly true, else the third. -/
  | choose (condition yes no : Expression)
  /-- The texts of the parts one after another; null is the empty text. -/
  | concat (parts : List Expression)
  | dict (entries : List (String × Expression))
  | outcome (decided : GuardOutcome)
  | redirect (target : Expression)
  | fail (text : String)
  deriving Inhabited

/-- What an expression is evaluated against. -/
inductive Scope where
  | request (given : Request)
  | extraction (values : List String) (search : Search)

namespace Scope

def params : Scope → Params
  | .request given => given.params
  | .extraction _ _ => .dict []

def contextValue : Scope → String → Value
  | .request ⟨.dict entries, _⟩, key => Entries.valueOf entries key
  | _, _ => .null

def captured : Scope → Int → Value
  | .extraction values _, position =>
    if position < 0 then .null
    else (values[position.toNat]?).elim .null .text
  | .request _, _ => .null

def searchSource : Scope → Search
  | .extraction _ search => search
  | .request _ => .query .empty

end Scope

namespace Value

/-- The text that a value contributes to a concatenation. -/
def joinedText : Value → String
  | .null => ""
  | value => value.plain

/-- Whether a value is exactly true. -/
def isTrue : Value → Bool
  | .bool true => true
  | _ => false

end Value

namespace Expression

mutual

/-- Evaluate an expression; of a choice only the chosen branch is evaluated. -/
def eval (scope : Scope) : Expression → Except CallbackError Value
  | .constant value => .ok value
  | .param name => .ok (scope.params.entries.valueOf name)
  | .params => .ok scope.params.toValue
  | .context key => .ok (scope.contextValue key)
  | .captured position => .ok (scope.captured position)
  | .first name otherwise => .ok ((scope.searchSource.get? name).elim otherwise .text)
  | .all name => .ok (.list ((scope.searchSource.getAll name).map .text))
  | .search => .ok scope.searchSource.toValue
  | .equal left right => do
    let leftValue ← eval scope left
    let rightValue ← eval scope right
    return .bool (leftValue.equal rightValue)
  | .choose condition yes no => do
    let value ← eval scope condition
    if value.isTrue then eval scope yes else eval scope no
  | .concat parts => do
    let texts ← evalTexts scope parts
    return .text (String.join texts)
  | .dict entries => do
    let values ← evalEntries scope entries
    return .dict (Entries.ofList values)
  | .outcome decided => .ok (.outcome decided)
  | .redirect target => do
    let value ← eval scope target
    return .outcome (.redirect value.joinedText)
  | .fail text => .error ⟨text⟩

/-- The texts of the parts of a concatenation. -/
def evalTexts (scope : Scope) : List Expression → Except CallbackError (List String)
  | [] => .ok []
  | part :: parts => do
    let value ← eval scope part
    let texts ← evalTexts scope parts
    return value.joinedText :: texts

/-- The values of the entries of a dictionary. -/
def evalEntries (scope : Scope) :
    List (String × Expression) → Except CallbackError (List (String × Value))
  | [] => .ok []
  | (key, expression) :: entries => do
    let value ← eval scope expression
    let values ← evalEntries scope entries
    return (key, value) :: values

end

def toGuard (expression : Expression) : Guard :=
  fun request => expression.eval (.request request)

def toHandler (expression : Expression) : Handler :=
  fun request => expression.eval (.request request)

def toExtractor (expression : Expression) : Extractor :=
  fun values search => expression.eval (.extraction values search)

end Expression

end RouteTree
