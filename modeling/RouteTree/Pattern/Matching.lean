import RouteTree.Pattern.Basic

/-! # Matching a pattern

A pattern matches the head of a list of segments: literals have to be equal, parameters capture.
What follows the head is left to the routes below.
-/

namespace RouteTree

/-- The segments captured by the head of a segment list, unless it is too short or a literal
differs. -/
def Segment.captures? : List Segment → List String → Option (List String)
  | [], _ => some []
  | _ :: _, [] => none
  | .literal text :: expected, actual :: rest =>
    if text = actual then captures? expected rest else none
  | .parameter _ :: expected, actual :: rest =>
    (captures? expected rest).map (actual :: ·)

namespace Pattern

/-- The values captured for the parameters, in the order of the segments. -/
def captures? (pattern : Pattern) (segments : List String) : Option (List String) :=
  Segment.captures? pattern.segments segments

/-- The segments that a match leaves over. -/
def leftover (pattern : Pattern) (segments : List String) : List String :=
  segments.drop pattern.segments.length

end Pattern

end RouteTree
