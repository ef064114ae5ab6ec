/-! # Router configuration

A router may be mounted below a path. The mount is kept in one form: empty, or with a slash before
it and none after it.
-/

namespace RouteTree

/-- Drop the slashes at the end of a text. -/
def dropFinalSlashes (text : List Char) : List Char :=
  (text.reverse.dropWhile (· == '/')).reverse

/-- A mount without slashes at its end and with one at its start, unless it is empty. -/
def normalMount (text : List Char) : List Char :=
  match dropFinalSlashes text with
  | [] => []
  | '/' :: rest => '/' :: rest
  | rest => '/' :: rest

/-- How a router reads and writes addresses. -/
structure Config where
  /-- The path below which the router is mounted. -/
  mount : String
  /-- Whether the segments of an address are percent-decoded before they are matched. -/
  decodesSegments : Bool
  deriving DecidableEq, Repr, Inhabited

namespace Config

/-- The configuration with a mount as it was given. -/
def ofMount (mount : String) (decodesSegments : Bool) : Config :=
  ⟨String.ofList (normalMount mount.toList), decodesSegments⟩

/-- No mount, and segments are decoded. -/
def unmounted : Config :=
  ⟨"", true⟩

end Config

end RouteTree
