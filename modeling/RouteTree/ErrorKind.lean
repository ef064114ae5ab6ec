import RouteTree.Hierarchy.Append
import RouteTree.Link

/-! # Kinds of errors

Every error of the library is of one kind, and every kind belongs to families by which a caller can
select. An error can also be constructed from texts, with a wording of its own or the usual one.
-/

namespace RouteTree

inductive ErrorKind where
  | general
  | configuration
  | patternSyntax
  | alreadyAppended
  | notInHierarchy
  | missingParameter
  deriving DecidableEq, Repr

namespace ErrorKind

/-- The public name of a kind. -/
def label : ErrorKind → String
  | .general => "WaypointError"
  | .configuration => "ConfigurationError"
  | .patternSyntax => "PathSyntaxError"
  | .alreadyAppended => "AlreadyAppendedError"
  | .notInHierarchy => "NotInHierarchyError"
  | .missingParameter => "MissingParameterError"

def all : List ErrorKind :=
  [.general, .configuration, .patternSyntax, .alreadyAppended, .notInHierarchy, .missingParameter]

/-- The kind with a public name. -/
def ofLabel? (label : String) : Option ErrorKind :=
  all.find? (·.label == label)

/-- The families of a kind in alphabetical order, its own among them. -/
def families : ErrorKind → List String
  | .general => ["WaypointError"]
  | .configuration => ["ConfigurationError", "WaypointError"]
  | .patternSyntax => ["ConfigurationError", "PathSyntaxError", "ValueError", "WaypointError"]
  | .alreadyAppended => ["AlreadyAppendedError", "ConfigurationError", "WaypointError"]
  | .notInHierarchy => ["NotInHierarchyError", "WaypointError"]
  | .missingParameter => ["KeyError", "MissingParameterError", "WaypointError"]

end ErrorKind

def RouteError.kind : RouteError → ErrorKind
  | .pattern _ => .patternSyntax
  | .uselessExtractor => .configuration

def AppendError.kind : AppendError → ErrorKind
  | .alreadyAppended => .alreadyAppended
  | .belowItself => .configuration

def LinkError.kind : LinkError → ErrorKind
  | .notInHierarchy => .notInHierarchy
  | .missing _ => .missingParameter

/-- An error as its reader sees it. -/
structure ErrorReport where
  kind : ErrorKind
  message : String
  /-- The refused pattern, for an error in a pattern. -/
  pattern : Option String
  /-- What is wrong with the pattern, for an error in a pattern. -/
  reason : Option String
  /-- The name without a value, for a missing parameter. -/
  name : Option String
  deriving DecidableEq, Repr

namespace ErrorKind

/-- The message of an error without a wording of its own: nothing for no text, the text itself for
one, and all of them as data for several. -/
def plainMessage : List String → String
  | [] => ""
  | [text] => text
  | texts => (Value.tuple (texts.map .text)).literal

/-- Construct an error of a kind from texts. -/
def report (kind : ErrorKind) (texts : List String) : ErrorReport :=
  let first := texts.headD ""
  match kind with
  | .general | .configuration => ⟨kind, plainMessage texts, none, none, none⟩
  | .patternSyntax => ⟨kind, first, some (texts[1]?.getD ""), some first, none⟩
  | .alreadyAppended =>
    ⟨kind, texts.headD (AppendError.message .alreadyAppended), none, none, none⟩
  | .notInHierarchy => ⟨kind, texts.headD (LinkError.message .notInHierarchy), none, none, none⟩
  | .missingParameter => ⟨kind, MissingParameter.message ⟨first⟩, none, none, some first⟩

end ErrorKind

end RouteTree
