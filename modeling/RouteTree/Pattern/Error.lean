import RouteTree.Text.Quoted

/-! # Why a pattern is refused

Every way in which a pattern text can offend is a reason of its own; `message` gives its wording,
and `message_eq` says how that is put together.
-/

namespace RouteTree

namespace Pattern

/-- The first offence of a pattern text. -/
inductive Reason where
  /-- A `#` stands anywhere in the text. -/
  | fragmentMark
  /-- Nothing stands between two slashes. -/
  | emptySegment
  /-- An `&` stands in a literal. -/
  | ampersandInSegment
  /-- A brace stands in a literal. -/
  | braceInSegment
  /-- A name holds an opening brace, an `&` or a colon. -/
  | forbiddenInName
  /-- A name has no closing brace; `found` stands where the brace should. -/
  | unclosedName (found : Option Char)
  /-- Nothing stands between the braces. -/
  | unnamedParameter
  /-- The name was used before in the same pattern. -/
  | repeatedName (name : String)
  /-- A segment goes on after its closing brace. -/
  | textAfterParameter (found : Char)
  /-- The path names no segment. -/
  | noSegments
  /-- A search item does not start with an opening brace. -/
  | expectedSearchParameter (found : String)
  /-- A search item goes on after its closing brace. -/
  | textAfterSearchParameter (found : Char)
  deriving DecidableEq, Repr

/-- The wording of a reason. -/
def Reason.message : Reason → String
  | .fragmentMark => "Path must not contain '#'"
  | .emptySegment => "Path segment must not be empty"
  | .ampersandInSegment => "Path segment must not contain '&'"
  | .braceInSegment => "Path segment must not contain '\x7b' or '\x7d'"
  | .forbiddenInName => "Parameter name must not contain '\x7b', '&' or ':'"
  | .unclosedName found =>
    "Parameter name must be followed by '\x7d', got " ++
      Text.quoted (String.ofList found.toList)
  | .unnamedParameter => "Parameter must have a name"
  | .repeatedName name => "Parameter must have a unique name, got " ++ Text.quoted name
  | .textAfterParameter found =>
    "Parameter must be followed by '/' or '?', got " ++ Text.quoted (String.singleton found)
  | .noSegments => "Path must contain at least one segment"
  | .expectedSearchParameter found =>
    "Expected parameter in search component, got " ++ Text.quoted found
  | .textAfterSearchParameter found =>
    "Search parameter must be followed by '&', got " ++ Text.quoted (String.singleton found)

namespace Reason

/-- What a pattern must satisfy, as messages say it. -/
def requirement : Reason → String
  | .fragmentMark => "Path must not contain '#'"
  | .emptySegment => "Path segment must not be empty"
  | .ampersandInSegment => "Path segment must not contain '&'"
  | .braceInSegment => "Path segment must not contain '\x7b' or '\x7d'"
  | .forbiddenInName => "Parameter name must not contain '\x7b', '&' or ':'"
  | .unclosedName _ => "Parameter name must be followed by '\x7d'"
  | .unnamedParameter => "Parameter must have a name"
  | .repeatedName _ => "Parameter must have a unique name"
  | .textAfterParameter _ => "Parameter must be followed by '/' or '?'"
  | .noSegments => "Path must contain at least one segment"
  | .expectedSearchParameter _ => "Expected parameter in search component"
  | .textAfterSearchParameter _ => "Search parameter must be followed by '&'"

/-- What was found instead, where a message quotes it; at the end of a text nothing was. -/
def found? : Reason → Option String
  | .unclosedName found => some (String.ofList found.toList)
  | .repeatedName name => some name
  | .textAfterParameter found => some (String.singleton found)
  | .expectedSearchParameter found => some found
  | .textAfterSearchParameter found => some (String.singleton found)
  | _ => none

/-- A message says what a pattern must satisfy and quotes what was found instead. -/
theorem message_eq (reason : Reason) :
    reason.message = reason.found?.elim reason.requirement fun found =>
      reason.requirement ++ ", got " ++ Text.quoted found := by
  cases reason <;> rfl

end Reason

end Pattern

/-- A refused pattern text and what is wrong with it. -/
structure PatternError where
  reason : Pattern.Reason
  pattern : String
  deriving DecidableEq, Repr

def PatternError.message (error : PatternError) : String :=
  error.reason.message

end RouteTree
