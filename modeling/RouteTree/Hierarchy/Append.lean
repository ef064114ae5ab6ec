import RouteTree.Hierarchy.Basic

/-! # Appending routes

A route can be appended once in its life, and never below itself. Both are checked for the whole
batch before anything is placed, so a refused batch leaves no trace.
-/

namespace RouteTree

/-- Why a batch is refused. -/
inductive AppendError where
  /-- A route of the batch was appended before, or the batch names it twice. -/
  | alreadyAppended
  /-- The batch holds the target itself or a route above it. -/
  | belowItself
  deriving DecidableEq, Repr

def AppendError.message : AppendError → String
  | .alreadyAppended => "Cannot append route that has already been appended"
  | .belowItself => "Cannot append a route to itself or to one of its descendants"

/-- Where a route is placed by appending it to a target. -/
def Placement.ofTarget : Handle → Placement
  | .route id => .below id
  | .router id => .root id

namespace Hierarchy

/-- The routes that cannot be appended to a target: a route itself and those above it. -/
def barred (hierarchy : Hierarchy) : Handle → List RouteId
  | .route id => hierarchy.lineage id
  | .router _ => []

/-- The routes appended to a target so far. -/
def members (hierarchy : Hierarchy) : Handle → List RouteId
  | .route id => hierarchy.children id
  | .router id => hierarchy.roots id

/-- Record the placement of a route. -/
def place (hierarchy : Hierarchy) (placement : Placement) (id : RouteId) : Hierarchy :=
  { hierarchy with
    nodes := hierarchy.nodes.modify id.index fun node => { node with placement } }

/-- Add routes at the end of a target's list. -/
def extend (hierarchy : Hierarchy) (batch : List RouteId) : Handle → Hierarchy
  | .route id =>
    { hierarchy with
      nodes := hierarchy.nodes.modify id.index fun node =>
        { node with children := node.children ++ batch } }
  | .router id =>
    { hierarchy with
      routers := hierarchy.routers.modify id.index fun router =>
        { router with roots := router.roots ++ batch } }

/-- Place routes at the end of a target's list. -/
def attach (hierarchy : Hierarchy) (target : Handle) (batch : List RouteId) : Hierarchy :=
  let placed := batch.foldl (fun current id => current.place (.ofTarget target) id) hierarchy
  placed.extend batch target

/-- Append routes to a route or a router, keeping their order. -/
def append (hierarchy : Hierarchy) (target : Handle) (batch : List RouteId) :
    Except AppendError Hierarchy :=
  if batch.any hierarchy.isAppended || !decide batch.Nodup then .error .alreadyAppended
  else if batch.any fun id => (hierarchy.barred target).contains id then .error .belowItself
  else .ok (hierarchy.attach target batch)

end Hierarchy

end RouteTree
