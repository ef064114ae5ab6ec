import RouteTree.Value.Basic

/-! # Entries of a dictionary

A dictionary is built entry by entry. A key that is already present keeps its place and takes the
new value; a new key goes to the end. Looking up a key that is absent gives null.
-/

namespace RouteTree

/-- Values by key, in the order in which the keys were first set. -/
abbrev Entries := List (String × Value)

namespace Entries

/-- Set the value of a key. -/
def insert : Entries → String × Value → Entries
  | [], entry => [entry]
  | head :: rest, entry =>
    if head.1 = entry.1 then entry :: rest else head :: insert rest entry

/-- The entries that result from setting keys one after another. -/
def ofList (entries : List (String × Value)) : Entries :=
  entries.foldl insert []

/-- The value of a key; an absent one is null. -/
def valueOf (entries : Entries) (key : String) : Value :=
  (entries.lookup key).getD .null

end Entries

end RouteTree
