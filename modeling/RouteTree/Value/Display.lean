import RouteTree.Text.Quoted
import RouteTree.Value.Basic

/-! # The texts of a value

A value has two texts. `Value.literal` shows it as data, with texts between quotes; `Value.plain` is
what a link carries, and differs from it for a text alone.
-/

namespace RouteTree.Value

mutual

/-- A value as data. A tuple of one item keeps a comma after it. -/
def literal : Value → String
  | .null => "None"
  | .bool true => "True"
  | .bool false => "False"
  | .int number => toString number
  | .float digits => digits
  | .nan _ => "nan"
  | .text content => Text.quoted content
  | .bytes octets => Text.quotedBytes octets
  | .list items => "[" ++ ", ".intercalate (literals items) ++ "]"
  | .tuple [item] => "(" ++ literal item ++ ",)"
  | .tuple items => "(" ++ ", ".intercalate (literals items) ++ ")"
  | .dict entries => "\x7b" ++ ", ".intercalate (entryLiterals entries) ++ "\x7d"
  | .outcome decided => decided.literal
  | .query source => source.literal
  | .lookup => "<object>"

/-- The items of a sequence as data. -/
def literals : List Value → List String
  | [] => []
  | item :: items => literal item :: literals items

/-- The entries of a dictionary as data. -/
def entryLiterals : List (String × Value) → List String
  | [] => []
  | (key, value) :: entries =>
    (Text.quoted key ++ ": " ++ literal value) :: entryLiterals entries

end

/-- A value as the text it stands for. -/
def plain : Value → String
  | .text content => content
  | value => value.literal

/-- The texts that a value stands for in a query: one for each item of a sequence, one for any other
value, and none for an absent value. -/
def plainItems : Value → List String
  | .null => []
  | .list items => items.map plain
  | .tuple items => items.map plain
  | value => [value.plain]

end RouteTree.Value
