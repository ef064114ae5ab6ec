import RouteTree.Dispatch
import RouteTree.ErrorKind

/-! # Sessions

A session runs commands on routes and routers that are known by labels. Each command is reported
with its answer or refusal, the calls it made and the messages it logged. A refused command changes
nothing, and the session goes on.
-/

namespace RouteTree

structure Session where
  hierarchy : Hierarchy
  /-- The labels, the latest first. -/
  labels : List (String × Handle)
  /-- The selections of the latest command that selected and did not fail. -/
  latest : List Selection

/-- One command of a session. -/
inductive Command where
  | route (label : String) (spec : RouteSpec)
  | router (label : String) (config : Config)
  | append (target : String) (batch : List String)
  | inspect (label : String)
  | select (label : String) (arrival : Arrival) (segments : List String)
  | selectPath (label : String) (context : Value) (path : String)
  | dispatch (label : String) (context : Value) (path : String)
  /-- Call the handler of one of the latest selections. -/
  | call (position : Int)
  /-- Link to a route, by the given router or else by its owner. -/
  | link (label : String) (arguments : Entries) (router : Option String)

/-- Why a command is refused. -/
inductive Refusal where
  | route (error : RouteError)
  | append (error : AppendError)
  | link (error : LinkError)
  | failure (error : Failure)
  | unknownLabel (label : String)
  | noSuchSelection
  deriving DecidableEq, Repr

def Refusal.message : Refusal → String
  | .route error => error.message
  | .append error => error.message
  | .link error => error.message
  | .failure error => error.message
  | .unknownLabel label => "unknown id " ++ label
  | .noSuchSelection => "no such selection"

/-- What is known about a route and its place. -/
structure RouteReport where
  route : Route
  parent : Option String
  children : List String
  isAppended : Bool
  owner : Option String
  lineage : List String

/-- The answer to a command. -/
inductive Answer where
  /-- A route as messages show it, or a link. -/
  | text (text : String)
  | config (config : Config)
  /-- The members of a target after an append. -/
  | members (labels : List String)
  | route (report : RouteReport)
  | router (config : Config) (roots : List String)
  | outcome (outcome : Outcome)
  | dispatch (dispatch : Dispatch)
  | value (value : Value)

/-- What is reported of a command. -/
structure Report where
  result : Except Refusal Answer
  calls : List Call
  records : List Record

namespace Report

/-- The report of a command that neither called nor logged. -/
def quiet (result : Except Refusal Answer) : Report :=
  ⟨result, [], []⟩

/-- The report of a run. -/
def ofRun {α : Type} (run : Run α) (answer : α → Answer) : Report :=
  ⟨(run.result.mapError .failure).map answer, run.calls, run.records⟩

end Report

namespace Session

/-- A session in which nothing is known. -/
def empty : Session :=
  ⟨.empty, [], []⟩

/-- The label under which a handle was introduced. -/
def labelOf (session : Session) (handle : Handle) : String :=
  ((session.labels.find? fun entry => entry.2 == handle).map Prod.fst).getD ""

def routeLabel (session : Session) (id : RouteId) : String :=
  session.labelOf (.route id)

def routerLabel (session : Session) (id : RouterId) : String :=
  session.labelOf (.router id)

def handle (session : Session) (label : String) : Except Refusal Handle :=
  match session.labels.lookup label with
  | some handle => .ok handle
  | none => .error (.unknownLabel label)

def routeId (session : Session) (label : String) : Except Refusal RouteId :=
  match session.labels.lookup label with
  | some (.route id) => .ok id
  | _ => .error (.unknownLabel label)

def routerId (session : Session) (label : String) : Except Refusal RouterId :=
  match session.labels.lookup label with
  | some (.router id) => .ok id
  | _ => .error (.unknownLabel label)

/-- Construct a route. -/
def addRoute (session : Session) (label : String) (spec : RouteSpec) : Session × Report :=
  match Route.ofSpec spec with
  | .error error => (session, .quiet (.error (.route error)))
  | .ok route =>
    ({ session with
        hierarchy := session.hierarchy.addRoute route
        labels := (label, .route session.hierarchy.nextRoute) :: session.labels },
      .quiet (.ok (.text route.literal)))

/-- Construct a router. -/
def addRouter (session : Session) (label : String) (config : Config) : Session × Report :=
  ({ session with
      hierarchy := session.hierarchy.addRouter config
      labels := (label, .router session.hierarchy.nextRouter) :: session.labels },
    .quiet (.ok (.config config)))

/-- Append routes; the target is looked up before the batch. -/
def append (session : Session) (label : String) (batch : List String) :
    Except Refusal (Session × Answer) := do
  let target ← session.handle label
  let ids ← batch.mapM session.routeId
  let hierarchy ← (session.hierarchy.append target ids).mapError .append
  let members := (hierarchy.members target).map session.routeLabel
  return ({ session with hierarchy }, .members members)

/-- Describe a route or a router. -/
def inspect (session : Session) (label : String) : Except Refusal Answer := do
  let hierarchy := session.hierarchy
  match ← session.handle label with
  | .route id =>
    return .route {
      route := (hierarchy.node? id).elim default Node.route
      parent := (hierarchy.parent? id).map session.routeLabel
      children := (hierarchy.children id).map session.routeLabel
      isAppended := hierarchy.isAppended id
      owner := (hierarchy.owner? id).map session.routerLabel
      lineage := (hierarchy.lineage id).map session.routeLabel }
  | .router id =>
    return .router ((hierarchy.router? id).elim .unmounted Router.config)
      ((hierarchy.roots id).map session.routeLabel)

/-- Report a run and keep its selections if it did not fail. -/
def keepSelections {α : Type} (session : Session) (run : Run α) (answer : α → Answer)
    (selections : α → List Selection) : Session × Report :=
  let latest := match run.result with
    | .ok value => selections value
    | .error _ => session.latest
  ({ session with latest }, .ofRun run answer)

/-- Call the handler of one of the latest selections. -/
def call (session : Session) (position : Int) : Report :=
  match if position < 0 then none else session.latest[position.toNat]? with
  | some selection => .ofRun selection.handle .value
  | none => .quiet (.error .noSuchSelection)

/-- Link to a route and log the link. -/
def link (session : Session) (label : String) (arguments : Entries) (router : Option String) :
    Except Refusal (String × Record) := do
  let id ← session.routeId label
  let link ← match router with
    | some owner => do
      let owner ← session.routerId owner
      (session.hierarchy.link owner id arguments).mapError Refusal.link
    | none => (session.hierarchy.linkByOwner id arguments).mapError Refusal.link
  return (link, session.hierarchy.linkRecord id link)

/-- Run one command. -/
def step (session : Session) : Command → Session × Report
  | .route label spec => session.addRoute label spec
  | .router label config => session.addRouter label config
  | .append label batch =>
    match session.append label batch with
    | .ok (next, answer) => (next, .quiet (.ok answer))
    | .error refusal => (session, .quiet (.error refusal))
  | .inspect label => (session, .quiet (session.inspect label))
  | .select label arrival segments =>
    match session.routeId label with
    | .ok id =>
      session.keepSelections (session.hierarchy.select id arrival segments) .outcome
        Outcome.selections
    | .error refusal => (session, .quiet (.error refusal))
  | .selectPath label context path =>
    match session.routerId label with
    | .ok id =>
      session.keepSelections (session.hierarchy.selectPath id context path) .outcome
        Outcome.selections
    | .error refusal => (session, .quiet (.error refusal))
  | .dispatch label context path =>
    match session.routerId label with
    | .ok id =>
      session.keepSelections (session.hierarchy.dispatch id context path) .dispatch
        Dispatch.selections
    | .error refusal => (session, .quiet (.error refusal))
  | .call position => (session, session.call position)
  | .link label arguments router =>
    match session.link label arguments router with
    | .ok (text, record) => (session, ⟨.ok (.text text), [], [record]⟩)
    | .error refusal => (session, .quiet (.error refusal))

/-- Run commands one after another. -/
def run (session : Session) : List Command → Session × List Report
  | [] => (session, [])
  | command :: rest =>
    let (next, report) := session.step command
    let (last, reports) := next.run rest
    (last, report :: reports)

end Session

end RouteTree
