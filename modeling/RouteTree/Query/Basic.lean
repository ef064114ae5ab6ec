import RouteTree.Text.Form
import RouteTree.Text.Quoted

/-! # Queries

A query maps names to one value or several. Names are kept in the order in which they were first
seen and the values of a name in their own order. A name without values cannot be stored: a group
holds its first value apart from the others.
-/

namespace RouteTree

/-- One name of a query with its values. -/
structure Query.Group where
  name : String
  first : String
  others : List String
  deriving DecidableEq, Repr, Inhabited

/-- The values of a group in order. -/
def Query.Group.values (group : Query.Group) : List String :=
  group.first :: group.others

/-- A query and the text it was read from, which is empty when it was built from fields. -/
structure Query where
  raw : String
  groups : List Query.Group
  deriving DecidableEq, Repr, Inhabited

namespace Query

/-- Add a value: to the group of its name, or as a new group after all others. -/
def Group.addTo : List Group → String × String → List Group
  | [], (name, value) => [⟨name, value, []⟩]
  | group :: rest, (name, value) =>
    if group.name = name then { group with others := group.others ++ [value] } :: rest
    else group :: addTo rest (name, value)

/-- The groups of a list of fields. -/
def group (fields : List (String × String)) : List Group :=
  fields.foldl Group.addTo []

/-- What a mapping can hold under a name. -/
inductive Entry where
  | single (value : String)
  | several (values : List String)
  deriving DecidableEq, Repr

def Entry.values : Entry → List String
  | .single value => [value]
  | .several values => values

/-- The query of a list of fields. -/
def ofFields (fields : List (String × String)) : Query :=
  ⟨"", group fields⟩

/-- The query of a mapping; a name with an empty list is left out. -/
def ofMapping (mapping : List (String × Entry)) : Query :=
  ofFields (mapping.flatMap fun (name, entry) => entry.values.map fun value => (name, value))

/-- The text of a query without the question mark that may introduce it. -/
def withoutMark : List Char → List Char
  | '?' :: rest => rest
  | text => text

/-- Read a query from a text, which may start with a question mark. -/
def ofText (text : String) : Query :=
  let raw := withoutMark text.toList
  ⟨String.ofList raw, group (Text.Form.decode raw)⟩

/-- Read a query from bytes, each of which is one character. -/
def ofBytes (bytes : List UInt8) : Query :=
  ofText (String.ofList (bytes.map fun byte => Char.ofNat byte.toNat))

/-- The query without any name. -/
def empty : Query :=
  ⟨"", []⟩

/-- All values of a name, none when the name is absent. -/
def getAll (query : Query) (name : String) : List String :=
  match query.groups.find? (·.name = name) with
  | some group => group.values
  | none => []

/-- The first value of a name. -/
def get? (query : Query) (name : String) : Option String :=
  (query.groups.find? (·.name = name)).map Group.first

/-- Whether a name is present. -/
def contains (query : Query) (name : String) : Bool :=
  query.groups.any (·.name = name)

/-- The names in the order in which they were first seen. -/
def names (query : Query) : List String :=
  query.groups.map Group.name

/-- The number of names. -/
def size (query : Query) : Nat :=
  query.groups.length

/-- Every name with its first value. -/
def items (query : Query) : List (String × String) :=
  query.groups.map fun group => (group.name, group.first)

/-- Whether two queries give every name the same first value, whatever the order. -/
def sameItems (left right : Query) : Bool :=
  left.size == right.size && left.items.all fun (name, value) => right.get? name == some value

/-- A query as data: every name with all its values. -/
def literal (query : Query) : String :=
  let shown := query.groups.map fun group =>
    Text.quoted group.name ++ ": [" ++ ", ".intercalate (group.values.map Text.quoted) ++ "]"
  "QueryParams(\x7b" ++ ", ".intercalate shown ++ "\x7d)"

end Query

end RouteTree
