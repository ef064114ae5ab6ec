import RouteTree.Config
import RouteTree.Route
import RouteTree.Run

/-! # Hierarchies

A hierarchy holds routes and routers under handles that stay valid. Every route records where it was
placed and, in order, the routes placed below it; every router records its root routes. The two
records are read by different operations: `lineage` climbs from a route to its root,
`Hierarchy.tree?` descends from a route to everything below it.
-/

namespace RouteTree

/-- Where a route was appended, if it was. -/
inductive Placement where
  | detached
  | below (parent : RouteId)
  | root (router : RouterId)
  deriving DecidableEq, Repr, Inhabited

namespace Placement

def isDetached : Placement → Bool
  | .detached => true
  | _ => false

def parent? : Placement → Option RouteId
  | .below parent => some parent
  | _ => none

def router? : Placement → Option RouterId
  | .root router => some router
  | _ => none

end Placement

/-- A route with its place. -/
structure Node where
  route : Route
  placement : Placement
  children : List RouteId
  deriving Inhabited

/-- A router with its root routes. -/
structure Router where
  config : Config
  roots : List RouteId
  deriving DecidableEq, Repr, Inhabited

structure Hierarchy where
  nodes : Array Node
  routers : Array Router
  deriving Inhabited

namespace Hierarchy

/-- No routes and no routers. -/
def empty : Hierarchy :=
  ⟨#[], #[]⟩

def node? (hierarchy : Hierarchy) (id : RouteId) : Option Node :=
  hierarchy.nodes[id.index]?

def router? (hierarchy : Hierarchy) (id : RouterId) : Option Router :=
  hierarchy.routers[id.index]?

/-- The handle that the next new route will get. -/
def nextRoute (hierarchy : Hierarchy) : RouteId :=
  ⟨hierarchy.nodes.size⟩

/-- The handle that the next new router will get. -/
def nextRouter (hierarchy : Hierarchy) : RouterId :=
  ⟨hierarchy.routers.size⟩

/-- Add a route that is placed nowhere; its handle is `nextRoute`. -/
def addRoute (hierarchy : Hierarchy) (route : Route) : Hierarchy :=
  { hierarchy with nodes := hierarchy.nodes.push ⟨route, .detached, []⟩ }

/-- Add a router without routes; its handle is `nextRouter`. -/
def addRouter (hierarchy : Hierarchy) (config : Config) : Hierarchy :=
  { hierarchy with routers := hierarchy.routers.push ⟨config, []⟩ }

/-- Where a route was placed. -/
def placement (hierarchy : Hierarchy) (id : RouteId) : Placement :=
  (hierarchy.node? id).elim .detached Node.placement

/-- The routes placed below a route. -/
def children (hierarchy : Hierarchy) (id : RouteId) : List RouteId :=
  (hierarchy.node? id).elim [] Node.children

/-- The root routes of a router. -/
def roots (hierarchy : Hierarchy) (id : RouterId) : List RouteId :=
  (hierarchy.router? id).elim [] Router.roots

def parent? (hierarchy : Hierarchy) (id : RouteId) : Option RouteId :=
  (hierarchy.placement id).parent?

/-- Whether a route was ever appended to a route or a router. -/
def isAppended (hierarchy : Hierarchy) (id : RouteId) : Bool :=
  !(hierarchy.placement id).isDetached

/-- The route and those above it, from the route up, in at most `steps` steps. -/
def climb (hierarchy : Hierarchy) : Nat → RouteId → List RouteId
  | 0, id => [id]
  | steps + 1, id =>
    match hierarchy.parent? id with
    | some parent => id :: hierarchy.climb steps parent
    | none => [id]

/-- The routes from the root of a route's tree down to the route itself. No climb is longer than the
number of routes, since none is above itself. -/
def lineage (hierarchy : Hierarchy) (id : RouteId) : List RouteId :=
  (hierarchy.climb hierarchy.nodes.size id).reverse

/-- The router that owns a route's tree, if one does. -/
def owner? (hierarchy : Hierarchy) (id : RouteId) : Option RouterId :=
  (hierarchy.lineage id).head?.bind fun root => (hierarchy.placement root).router?

end Hierarchy

end RouteTree
