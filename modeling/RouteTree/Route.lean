import RouteTree.Callback
import RouteTree.Pattern.Matching
import RouteTree.Pattern.Parser

/-! # Routes

A route is one node of a tree, apart from its place there: an optional pattern, the callbacks, and
an outlet, which is any value but null. A route without a pattern consumes no segments. The
functions here are the pure steps of a traversal at one route; `RouteTree.Tree` puts them together.
-/

namespace RouteTree

structure Route where
  pattern : Option Pattern
  guard : Option Guard
  extractor : Option Extractor
  handler : Option Handler
  outlet : Value
  /-- Whether an address that ends at this route has to agree with it about a trailing slash. -/
  slashMustMatch : Bool
  deriving Inhabited

/-- Why a route cannot be constructed. -/
inductive RouteError where
  | pattern (error : PatternError)
  /-- An extractor was given although a request can give the route no parameters. -/
  | uselessExtractor
  deriving DecidableEq, Repr

def RouteError.message : RouteError → String
  | .pattern error => error.message
  | .uselessExtractor => "Can't specify params() if path doesn't contain any"

/-- What a route is constructed from: a route whose pattern is still a text. -/
structure RouteSpec where
  path : Option String
  guard : Option Guard
  extractor : Option Extractor
  handler : Option Handler
  outlet : Value
  slashMustMatch : Bool

/-- Read the pattern, if there is one. -/
def RouteSpec.pattern (spec : RouteSpec) : Except RouteError (Option Pattern) :=
  match spec.path with
  | none => .ok none
  | some path => (Pattern.parse path).mapError .pattern |>.map some

/-- Construct a route. A fault in the pattern is reported before any other. -/
def Route.ofSpec (spec : RouteSpec) : Except RouteError Route := do
  let pattern ← spec.pattern
  if spec.extractor.isSome && !pattern.any Pattern.hasParameters then throw .uselessExtractor
  return {
    pattern
    guard := spec.guard
    extractor := spec.extractor
    handler := spec.handler
    outlet := spec.outlet
    slashMustMatch := spec.slashMustMatch }

namespace Route

def hasOutlet (route : Route) : Bool :=
  !route.outlet.isNull

/-- A route as messages show it. -/
def literal (route : Route) : String :=
  let path := match route.pattern with
    | some pattern => Text.quoted pattern.text
    | none => "None"
  "Route(path=" ++ path ++ ", outlet=" ++ route.outlet.literal ++ ")"

/-- The segments captured by the head of a segment list, if the route matches it. -/
def captures? (route : Route) (segments : List String) : Option (List String) :=
  match route.pattern with
  | some pattern => pattern.captures? segments
  | none => some []

/-- The segments that the route leaves to its children. -/
def leftover (route : Route) (segments : List String) : List String :=
  match route.pattern with
  | some pattern => pattern.leftover segments
  | none => segments

/-- Whether an address may end at this route. -/
def endsWith (route : Route) (trailingSlash : Bool) : Bool :=
  match route.pattern with
  | some pattern => !route.slashMustMatch || pattern.trailingSlash == trailingSlash
  | none => true

/-- The first step at a route, without any callback: what it captures and what it leaves over. A
route that leaves segments over needs a child or an outlet to answer for them. -/
def take? (route : Route) (isLeaf trailingSlash : Bool) (segments : List String) :
    Option (List String × List String) :=
  match route.captures? segments with
  | none => none
  | some values =>
    let rest := route.leftover segments
    if rest.isEmpty then
      if route.endsWith trailingSlash then some (values, rest) else none
    else if isLeaf && !route.hasOutlet then none
    else some (values, rest)

/-- A group with the given values, if there are any. -/
def searchGroup? (search : Search) (name : String) : Option Query.Group :=
  match search.getAll name with
  | [] => none
  | first :: others => some ⟨name, first, others⟩

/-- Every value present for each declared search name. -/
def searchGroups (route : Route) (search : Search) : List Query.Group :=
  match route.pattern with
  | some pattern => pattern.searchNames.filterMap (searchGroup? search)
  | none => []

/-- The parameters of a route without an extractor: the captured segments under their names, then
the first value of each search name. -/
def defaultParams (route : Route) (values : List String) (groups : List Query.Group) : Params :=
  let names := match route.pattern with
    | some pattern => pattern.parameters
    | none => []
  .dict (Entries.ofList
    ((names.zip values).map (fun (name, value) => (name, .text value)) ++
      groups.map fun group => (group.name, .text group.first)))

end Route

end RouteTree
