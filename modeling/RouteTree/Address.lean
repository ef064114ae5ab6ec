import RouteTree.Config
import RouteTree.Query.Basic

/-! # Addresses

An address is a path text taken apart: the segments, whether a slash ends them, and the query. The
fragment is ignored, empty segments are dropped, and an address outside the mount is none at all.
-/

namespace RouteTree

/-- What a router reads from a path text. -/
structure Address where
  segments : List String
  trailingSlash : Bool
  query : Query
  deriving DecidableEq, Repr

namespace Address

/-- The part of a path below a mount: all of it without one, and nothing when the path lies
outside. -/
def below? (mount path : List Char) : Option (List Char) :=
  if mount.isEmpty then some path
  else if path = mount || (mount ++ ['/']).isPrefixOf path then some (path.drop mount.length)
  else none

/-- The parts of a path between its slashes, without the empty ones. -/
def parts (path : List Char) : List (List Char) :=
  (path.splitOn '/').filter fun part => !part.isEmpty

/-- A part of a path as a segment to be matched. -/
def segmentOf (config : Config) (part : List Char) : String :=
  String.ofList (if config.decodesSegments then Text.Percent.decode part else part)

/-- The address of a path below the mount and of a query text. -/
def ofParts (config : Config) (path query : List Char) : Address :=
  { segments := (parts path).map (segmentOf config)
    trailingSlash := !(parts path).isEmpty && path.getLast? == some '/'
    query := Query.ofText (String.ofList query) }

/-- Read an address, unless it lies outside the mount. -/
def parse? (config : Config) (text : String) : Option Address :=
  let withoutFragment := Text.before '#' text.toList
  let path := Text.before '?' withoutFragment
  let query := Text.after '?' withoutFragment
  (below? config.mount.toList path).map fun inside => ofParts config inside query

end Address

end RouteTree
