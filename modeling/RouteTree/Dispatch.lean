import RouteTree.Address
import RouteTree.Hierarchy.Subtree

/-! # Selecting and dispatching by path

A router reads an address and offers its segments to the root routes in order. Dispatching then
calls the handlers of the selected routes from the root down.
-/

namespace RouteTree

/-- What a dispatch reports. -/
structure Dispatch where
  success : Bool
  redirect : Option String
  selections : List Selection

/-- The report of an outcome whose handlers were called. -/
def Dispatch.ofOutcome : Outcome → Dispatch
  | .noMatch => ⟨false, none, []⟩
  | .redirect target => ⟨false, some target, []⟩
  | .chain first rest => ⟨true, none, first :: rest⟩

/-- Call the handlers of selections in order; their replies are dropped. -/
def Selection.handleAll : List Selection → Run Unit
  | [] => pure ()
  | selection :: rest => do
    let _ ← selection.handle
    handleAll rest

namespace Hierarchy

/-- Match segments against the tree below a route. -/
def select (hierarchy : Hierarchy) (id : RouteId) (arrival : Arrival) (segments : List String) :
    Run Outcome :=
  match hierarchy.tree? id with
  | none => pure .noMatch
  | some tree => tree.select arrival segments

/-- Match the segments of an address against a router's trees. -/
def selectAddress (hierarchy : Hierarchy) (router : RouterId) (context : Value)
    (address : Address) : Run Outcome :=
  Tree.selectFirst ⟨context, .query address.query, address.trailingSlash⟩ address.segments
    (hierarchy.trees router)

/-- Match a path text against a router's trees. A path that leads nowhere is logged. -/
def selectPath (hierarchy : Hierarchy) (router : RouterId) (context : Value) (path : String) :
    Run Outcome := do
  let config := (hierarchy.router? router).elim .unmounted Router.config
  match Address.parse? config path with
  | none =>
    Run.log (.outsideMount path config.mount)
    return .noMatch
  | some address =>
    match ← hierarchy.selectAddress router context address with
    | .noMatch =>
      Run.log (.unmatched path)
      return .noMatch
    | found => return found

/-- Select by a path text and call the handlers of the chain. -/
def dispatch (hierarchy : Hierarchy) (router : RouterId) (context : Value) (path : String) :
    Run Dispatch := do
  let outcome ← hierarchy.selectPath router context path
  Selection.handleAll outcome.selections
  return .ofOutcome outcome

end Hierarchy

end RouteTree
