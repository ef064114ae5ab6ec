import RouteTree.GuardOutcome
import RouteTree.Query.Basic
import RouteTree.Value.Quantity

/-! # Values

Contexts, parameters, outlets and the replies of callbacks are values. A value is a datum of the
application, that is a scalar, a sequence of either kind, or a dictionary with text keys in a fixed
order; or it is one of the things that callbacks hand on as they are: the outcome of a guard, a
query, or the source of search values of the request at hand.
-/

namespace RouteTree

/-- A value of the application. A floating-point number is held by its shortest text. -/
inductive Value where
  | null
  | bool (flag : Bool)
  | int (number : Int)
  | float (digits : String)
  /-- What is not a number. Each one that is written has a label of its own. -/
  | nan (label : Nat)
  | text (content : String)
  | bytes (octets : List UInt8)
  | list (items : List Value)
  | tuple (items : List Value)
  | dict (entries : List (String × Value))
  | outcome (decided : GuardOutcome)
  | query (source : Query)
  /-- The source of search values of the request, when it is no query. -/
  | lookup
  deriving Repr, Inhabited

namespace Value

/-- The name of a value's kind, as messages give it. -/
def kindName : Value → String
  | .null => "NoneType"
  | .bool _ => "bool"
  | .int _ => "int"
  | .float _ => "float"
  | .nan _ => "float"
  | .text _ => "str"
  | .bytes _ => "bytes"
  | .list _ => "list"
  | .tuple _ => "tuple"
  | .dict _ => "dict"
  | .outcome decided => decided.kindName
  | .query _ => "QueryParams"
  | .lookup => "object"

def isNull : Value → Bool
  | .null => true
  | _ => false

/-- Whether a value is the given text. -/
def isText : Value → String → Bool
  | .text content, other => content == other
  | _, _ => false

/-- What a number amounts to: a truth value counts as one or zero. -/
def quantity? : Value → Option Quantity
  | .bool flag => some (.ofInt (if flag then 1 else 0))
  | .int number => some (.ofInt number)
  | .float digits => Quantity.ofText? digits
  | _ => none

/-- Whether a value is a number of the given quantity. -/
def amountsTo (value : Value) (quantity : Option Quantity) : Bool :=
  quantity.isSome && value.quantity? == quantity

/-- Whether two values are one and the same thing that is not a number. -/
def isSameNan : Value → Value → Bool
  | .nan label, .nan other => label == other
  | _, _ => false

/-- Whether a dictionary holds the items of a query and nothing else. -/
def holdsItems (entries : List (String × Value)) (source : Query) : Bool :=
  entries.length == source.size &&
    source.items.all fun (name, first) => (entries.lookup name).any (·.isText first)

mutual

/-- Equality of values. Numbers compare by what they amount to, and what is not a number equals
nothing; sequences compare item by item within one kind, dictionaries by their keys whatever the
order, and a query compares by its items, also with a dictionary. -/
def equal : Value → Value → Bool
  | .null, other => other.isNull
  | .bool flag, other => other.amountsTo (Value.bool flag).quantity?
  | .int number, other => other.amountsTo (Value.int number).quantity?
  | .float digits, other => other.amountsTo (Value.float digits).quantity?
  | .nan _, _ => false
  | .text content, other => other.isText content
  | .bytes octets, other =>
    match other with
    | .bytes others => octets == others
    | _ => false
  | .list items, other =>
    match other with
    | .list others => equalItems items others
    | _ => false
  | .tuple items, other =>
    match other with
    | .tuple others => equalItems items others
    | _ => false
  | .dict entries, other =>
    match other with
    | .dict others => entries.length == others.length && equalEntries entries others
    | .query source => holdsItems entries source
    | _ => false
  | .outcome decided, other =>
    match other with
    | .outcome others => decided == others
    | _ => false
  | .query source, other =>
    match other with
    | .query others => source.sameItems others
    | .dict entries => holdsItems entries source
    | _ => false
  | .lookup, other =>
    match other with
    | .lookup => true
    | _ => false

/-- Equality of sequences, item by item. An item equals itself even if it is not a number. -/
def equalItems : List Value → List Value → Bool
  | [], others => others.isEmpty
  | _ :: _, [] => false
  | item :: items, other :: others =>
    (item.isSameNan other || equal item other) && equalItems items others

/-- Whether every entry has an equal value, or the value itself, under its key among `others`. -/
def equalEntries : List (String × Value) → List (String × Value) → Bool
  | [], _ => true
  | (key, value) :: entries, others =>
    (match others.lookup key with
      | some other => value.isSameNan other || equal value other
      | none => false) && equalEntries entries others

end

end Value

end RouteTree
