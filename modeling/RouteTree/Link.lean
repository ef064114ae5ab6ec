import RouteTree.Hierarchy.Basic
import RouteTree.Pattern.Render
import RouteTree.Text.Form

/-! # Links

A link leads to a route: the patterns from the root of its tree down to it are filled in one after
another, and the result is written below the mount of the router. A search name that several of
these patterns declare is written once.
-/

namespace RouteTree

/-- The parts of a link, not yet encoded. -/
structure Link where
  segments : List String
  query : List (String × String)
  trailingSlash : Bool
  deriving DecidableEq, Repr

/-- Why no link leads to a route. -/
inductive LinkError where
  /-- The router does not own the route's tree. -/
  | notInHierarchy
  | missing (error : MissingParameter)
  deriving DecidableEq, Repr

def LinkError.message : LinkError → String
  | .notInHierarchy => "Cannot generate link for route that is not in the hierarchy"
  | .missing error => error.message

namespace Link

/-- The link to the end of a chain of patterns. Fields of names in `written` are left out, and
`trailingSlash` is that of the pattern before the chain. -/
def ofPatterns (arguments : Entries) :
    List String → Bool → List Pattern → Except MissingParameter Link
  | _, trailingSlash, [] => .ok ⟨[], [], trailingSlash⟩
  | written, _, pattern :: rest => do
    let rendered ← pattern.render arguments
    let below ← ofPatterns arguments (written ++ pattern.searchNames) pattern.trailingSlash rest
    return {
      segments := rendered.segments ++ below.segments
      query := rendered.query.filter (fun field => !written.contains field.1) ++ below.query
      trailingSlash := below.trailingSlash }

/-- The written form of the path below a mount. -/
def pathText (link : Link) : List Char :=
  '/' :: List.intercalate ['/'] (link.segments.map fun text => Text.Percent.encode text.toList) ++
    if link.trailingSlash && !link.segments.isEmpty then ['/'] else []

/-- The written form of the query with its question mark, if there is any. -/
def queryText (link : Link) : List Char :=
  if link.query.isEmpty then [] else '?' :: Text.Form.encode link.query

/-- The written form of a link below a mount. -/
def text (mount : String) (link : Link) : String :=
  mount ++ String.ofList (link.pathText ++ link.queryText)

end Link

namespace Hierarchy

/-- The patterns from the root of a route's tree down to the route. -/
def patterns (hierarchy : Hierarchy) (id : RouteId) : List Pattern :=
  (hierarchy.lineage id).filterMap fun above => (hierarchy.node? above).bind (·.route.pattern)

/-- The parts of the link to a route. -/
def linkParts (hierarchy : Hierarchy) (id : RouteId) (arguments : Entries) :
    Except MissingParameter Link :=
  Link.ofPatterns arguments [] false (hierarchy.patterns id)

/-- The link by which a router leads to a route. -/
def link (hierarchy : Hierarchy) (router : RouterId) (id : RouteId) (arguments : Entries) :
    Except LinkError String := do
  if hierarchy.owner? id ≠ some router then throw .notInHierarchy
  let parts ← (hierarchy.linkParts id arguments).mapError .missing
  return parts.text ((hierarchy.router? router).elim "" (·.config.mount))

/-- A router refuses the routes that it does not own. -/
theorem link_of_not_owned {hierarchy : Hierarchy} {router : RouterId} {id : RouteId}
    (foreign : hierarchy.owner? id ≠ some router) (arguments : Entries) :
    hierarchy.link router id arguments = .error .notInHierarchy := by
  rw [link, if_pos foreign]
  rfl

/-- To a route that it owns, a router writes the parts of the link below its mount. -/
theorem link_of_owned {hierarchy : Hierarchy} {router : RouterId} {id : RouteId}
    (owned : hierarchy.owner? id = some router) (arguments : Entries) :
    hierarchy.link router id arguments =
      ((hierarchy.linkParts id arguments).mapError LinkError.missing).map
        (Link.text ((hierarchy.router? router).elim "" (·.config.mount))) := by
  rw [link, if_neg (not_not_intro owned)]
  cases hierarchy.linkParts id arguments <;> rfl

/-- A router makes a link to every route that it owns, unless a value is missing. -/
theorem link_ne_notInHierarchy {hierarchy : Hierarchy} {router : RouterId} {id : RouteId}
    (owned : hierarchy.owner? id = some router) (arguments : Entries) :
    hierarchy.link router id arguments ≠ .error .notInHierarchy := by
  rw [link_of_owned owned]
  cases hierarchy.linkParts id arguments <;> nofun

/-- The link to a route by the router that owns it. -/
def linkByOwner (hierarchy : Hierarchy) (id : RouteId) (arguments : Entries) :
    Except LinkError String :=
  match hierarchy.owner? id with
  | none => .error .notInHierarchy
  | some router => hierarchy.link router id arguments

/-- The message that is logged for a link. -/
def linkRecord (hierarchy : Hierarchy) (id : RouteId) (link : String) : Record :=
  .linked ((hierarchy.node? id).elim "" (·.route.literal)) link

end Hierarchy

end RouteTree
