/-! # Route patterns

A pattern says which segments a route consumes and which query names it reads. `Pattern.text` writes
it down, for instance as `/users/{id}/?{tab}`, and `Pattern.WellFormed` describes the patterns that
have a written form of their own.
-/

namespace RouteTree

/-- One place in the path of a pattern. -/
inductive Segment where
  /-- The segment has to be exactly this text. -/
  | literal (text : String)
  /-- Any one segment is captured under this name. -/
  | parameter (name : String)
  deriving DecidableEq, Repr, Inhabited

/-- The name that a segment captures under, if it captures. -/
def Segment.name? : Segment → Option String
  | .literal _ => none
  | .parameter name => some name

/-- A parameter name between braces. -/
def Segment.braced (name : String) : String :=
  "\x7b" ++ name ++ "\x7d"

/-- The written form of a segment. -/
def Segment.text : Segment → String
  | .literal text => text
  | .parameter name => braced name

/-- The structure of a pattern. `parameters` lists the names of the capturing segments in order. -/
structure Pattern where
  segments : List Segment
  parameters : List String
  searchNames : List String
  leadingSlash : Bool
  trailingSlash : Bool
  deriving DecidableEq, Repr, Inhabited

namespace Pattern

/-- Whether a request can give this pattern a value, in its path or in its query. -/
def hasParameters (pattern : Pattern) : Bool :=
  !pattern.parameters.isEmpty || !pattern.searchNames.isEmpty

/-- The written form of the path alone. -/
def pathText (pattern : Pattern) : String :=
  (if pattern.leadingSlash then "/" else "") ++
    "/".intercalate (pattern.segments.map Segment.text) ++
    (if pattern.trailingSlash then "/" else "")

/-- The written form of a pattern. -/
def text (pattern : Pattern) : String :=
  pattern.pathText ++
    if pattern.searchNames.isEmpty then ""
    else "?" ++ "&".intercalate (pattern.searchNames.map Segment.braced)

/-- A literal holds a character at least and none with a meaning of its own. -/
def IsLiteralText (text : String) : Prop :=
  text ≠ "" ∧ ∀ char ∈ text.toList, char ∉ ['/', '?', '#', '&', '\x7b', '\x7d']

/-- A name holds a character at least and none that would end or spoil it. -/
def IsName (name : String) : Prop :=
  name ≠ "" ∧ ∀ char ∈ name.toList, char ∉ ['\x7d', '/', '?', '\x7b', '&', ':', '#']

/-- A pattern that has a written form: at least one segment, proper literals and names, parameters
listed as the segments name them, and no name twice. -/
structure WellFormed (pattern : Pattern) : Prop where
  segments_ne_nil : pattern.segments ≠ []
  literals : ∀ text, Segment.literal text ∈ pattern.segments → IsLiteralText text
  names : ∀ name ∈ pattern.parameters ++ pattern.searchNames, IsName name
  parameters_eq : pattern.parameters = pattern.segments.filterMap Segment.name?
  distinct : (pattern.parameters ++ pattern.searchNames).Nodup

end Pattern

end RouteTree
