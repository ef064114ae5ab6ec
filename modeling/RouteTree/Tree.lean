import RouteTree.Selection

/-! # Selecting in a tree

A traversal is depth-first and commits to the first child that gives a chain or a redirect. At every
route the order is the same: match the segments, extract, ask the guard, then try the children. The
outlet answers only after all children failed.
-/

namespace RouteTree

/-- A route with everything below it. -/
inductive Tree where
  | node (id : RouteId) (route : Route) (children : List Tree)

/-- What stays the same throughout a traversal. -/
structure Arrival where
  context : Value
  search : Search
  trailingSlash : Bool

/-- What a route's callbacks make of a match. -/
inductive Verdict where
  | refused
  | redirect (target : String)
  | admitted (params : Params)

namespace Route

/-- The parameters of a matching route, unless its extractor replies with nothing usable. -/
def extract (route : Route) (id : RouteId) (arrival : Arrival) (values : List String) :
    Run (Option Params) :=
  match route.extractor with
  | none => pure (some (route.defaultParams values (route.searchGroups arrival.search)))
  | some extractor => do
    Run.call (.extractor id values)
    let reply ← Run.reply (extractor values arrival.search)
    return reply.params?

/-- What the guard decides; a route without one proceeds. -/
def consult (route : Route) (id : RouteId) (request : Request) : Run GuardOutcome :=
  match route.guard with
  | none => pure .proceed
  | some guard => do
    Run.call (.guard id request)
    let reply ← Run.reply (guard request)
    Run.ofExcept reply.decision

/-- Extract and ask the guard. A redirect is logged where it is requested. -/
def judge (route : Route) (id : RouteId) (arrival : Arrival) (values : List String) :
    Run Verdict := do
  match ← route.extract id arrival values with
  | none => return .refused
  | some params =>
    match ← route.consult id ⟨arrival.context, params⟩ with
    | .proceed => return .admitted params
    | .reject => return .refused
    | .redirect target =>
      Run.log (.redirectRequested id route.literal target)
      return .redirect target

/-- The selection of a route. -/
def selection (route : Route) (id : RouteId) (arrival : Arrival) (values : List String)
    (params : Params) (kind : MatchKind) : Selection :=
  { route := id
    kind
    request := ⟨arrival.context, params⟩
    values
    groups := route.searchGroups arrival.search
    pattern := route.pattern
    handler := route.handler }

end Route

namespace Tree

def id : Tree → RouteId
  | .node id _ _ => id

def route : Tree → Route
  | .node _ route _ => route

def children : Tree → List Tree
  | .node _ _ children => children

/-- What an admitted route makes of its children's outcome. -/
def complete (route : Route) (selection : MatchKind → Selection) : Outcome → Outcome
  | .redirect target => .redirect target
  | .chain first rest => .chain (selection .inner) (first :: rest)
  | .noMatch => if route.hasOutlet then .chain (selection .error) [] else .noMatch

mutual

/-- Match segments against a tree. -/
def select (arrival : Arrival) (segments : List String) : Tree → Run Outcome
  | .node id route children =>
    match route.take? children.isEmpty arrival.trailingSlash segments with
    | none => pure .noMatch
    | some (values, rest) => do
      match ← route.judge id arrival values with
      | .refused => return .noMatch
      | .redirect target => return .redirect target
      | .admitted params =>
        let selection := route.selection id arrival values params
        if rest.isEmpty then return .chain (selection .index) []
        else return complete route selection (← selectFirst arrival rest children)

/-- Match segments against trees in order, until one gives a chain or a redirect. -/
def selectFirst (arrival : Arrival) (segments : List String) : List Tree → Run Outcome
  | [] => pure .noMatch
  | tree :: trees => do
    match ← select arrival segments tree with
    | .noMatch => selectFirst arrival segments trees
    | found => return found

end

end Tree

end RouteTree
