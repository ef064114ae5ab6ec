import RouteTree.Proofs.Selection.Calls

/-! # Hierarchies that differ in their handles

A router of one hierarchy and a router of another may own the same routes under different handles.
A traversal reads handles only to write them down, so it makes the same calls on both sides and
finds the same routes, each under its own handle. `Mirrors` relates two such runs; it is kept by
every way in which runs are put together.
-/

namespace RouteTree

/-! ## Handles written down -/

/-- A call with other handles. -/
def Call.rename (twin : RouteId → RouteId) : Call → Call
  | .extractor route values => .extractor (twin route) values
  | .guard route request => .guard (twin route) request
  | .handler route request => .handler (twin route) request

/-- A selection with another handle. -/
def Selection.rename (twin : RouteId → RouteId) (selection : Selection) : Selection :=
  { selection with route := twin selection.route }

/-- An outcome with other handles. -/
def Outcome.rename (twin : RouteId → RouteId) : Outcome → Outcome
  | .noMatch => .noMatch
  | .redirect target => .redirect target
  | .chain first rest => .chain (first.rename twin) (rest.map (Selection.rename twin))

/-- A report of a dispatch with other handles. -/
def Dispatch.rename (twin : RouteId → RouteId) (dispatch : Dispatch) : Dispatch :=
  { dispatch with selections := dispatch.selections.map (Selection.rename twin) }

variable {twin : RouteId → RouteId}

theorem Outcome.selections_rename (outcome : Outcome) :
    (outcome.rename twin).selections = outcome.selections.map (Selection.rename twin) := by
  cases outcome <;> rfl

theorem Dispatch.ofOutcome_rename (outcome : Outcome) :
    Dispatch.ofOutcome (outcome.rename twin) = (Dispatch.ofOutcome outcome).rename twin := by
  cases outcome <;> rfl

namespace Run

variable {α β γ δ : Type}

/-- A run that makes the same calls as another one and has the same result, under other handles. -/
structure Mirrors (twin : RouteId → RouteId) (rename : α → β) (run : Run α) (mirror : Run β) :
    Prop where
  calls : mirror.calls = run.calls.map (Call.rename twin)
  result : mirror.result = run.result.map rename

namespace Mirrors

theorem pure (rename : α → β) (value : α) :
    Mirrors twin rename (Pure.pure value) (Pure.pure (rename value)) :=
  ⟨rfl, rfl⟩

theorem bind {rename : α → β} {rename' : γ → δ} {run : Run α} {mirror : Run β}
    (first : Mirrors twin rename run mirror) {next : α → Run γ} {next' : β → Run δ}
    (second : ∀ value, Mirrors twin rename' (next value) (next' (rename value))) :
    Mirrors twin rename' (run >>= next) (mirror >>= next') := by
  have result := first.result
  cases found : run.result with
  | error failure =>
    rw [found] at result
    rw [bind_of_error found, bind_of_error result]
    exact ⟨first.calls, rfl⟩
  | ok value =>
    rw [found] at result
    rw [bind_of_ok found, bind_of_ok result]
    refine ⟨?_, (second value).result⟩
    change mirror.calls ++ (next' (rename value)).calls = List.map _ (run.calls ++ _)
    rw [first.calls, (second value).calls, List.map_append]

end Mirrors

end Run

/-! ## One step -/

namespace Route

variable {route : Route} {id : RouteId} {arrival : Arrival} {segments : List String}

theorem judge_mirrors (route : Route) (id : RouteId) (arrival : Arrival) (values : List String) :
    Run.Mirrors twin (fun verdict => verdict) (route.judge id arrival values)
      (route.judge (twin id) arrival values) := by
  constructor
  · simp only [calls_judge, calls_extract, calls_consult, List.map_append]
    congr 1
    · split <;> rfl
    · split
      · split <;> rfl
      · rfl
  · rw [result_judge, result_judge]
    generalize (route.extraction arrival values).bind _ = result
    cases result <;> rfl

theorem complete_rename (values : List String) (params : Params) (outcome : Outcome) :
    (Tree.complete route (route.selection id arrival values params) outcome).rename twin =
      Tree.complete route (route.selection (twin id) arrival values params)
        (outcome.rename twin) := by
  cases outcome with
  | noMatch =>
    rw [Outcome.rename, Tree.complete, Tree.complete]
    split <;> rfl
  | redirect target => rfl
  | chain first rest => rfl

/-- A step writes down the handle of its route and takes every other one from below. -/
theorem answer_mirrors {isLeaf : Bool} {below below' : List String → Run Outcome}
    (onward : ∀ rest, Run.Mirrors twin (Outcome.rename twin) (below rest) (below' rest)) :
    Run.Mirrors twin (Outcome.rename twin) (route.answer id isLeaf arrival segments below)
      (route.answer (twin id) isLeaf arrival segments below') := by
  rw [answer, answer]
  split
  · exact .pure _ _
  · next values rest taken =>
    refine (route.judge_mirrors id arrival values).bind fun verdict => ?_
    cases verdict with
    | refused => exact .pure _ _
    | redirect target => exact .pure _ _
    | admitted params =>
      by_cases done : rest.isEmpty
      · simp only [done, if_true]
        exact .pure _ _
      · simp only [done]
        refine (onward rest).bind fun outcome => ?_
        rw [← complete_rename]
        exact .pure _ _

end Route

/-- A handler is called with the same request under another handle. -/
theorem Selection.handleAll_mirrors (selections : List Selection) :
    Run.Mirrors twin (fun value => value) (handleAll selections)
      (handleAll (selections.map (Selection.rename twin))) := by
  have handle_mirrors : ∀ selection : Selection, Run.Mirrors twin (fun value => value)
      selection.handle (selection.rename twin).handle := by
    intro selection
    simp only [handle, rename]
    cases selection.handler with
    | none => exact .pure _ _
    | some handler =>
      have called : Run.Mirrors twin (fun value => value)
          (Run.call (.handler selection.route selection.request))
          (Run.call (.handler (twin selection.route) selection.request)) := ⟨rfl, rfl⟩
      refine called.bind fun _ => ⟨rfl, ?_⟩
      simp only [Run.reply]
      cases handler selection.request <;> rfl
  induction selections with
  | nil => exact .pure _ _
  | cons selection rest ih => exact (handle_mirrors selection).bind fun _ => ih

namespace Hierarchy

variable {hierarchy mirror : Hierarchy} {router router' : RouterId} {id : RouteId}
  {arrival : Arrival} {segments : List String} {path path' : String}

theorem config_of_config? {config : Config} (given : hierarchy.config? router = some config) :
    (hierarchy.router? router).elim .unmounted Router.config = config := by
  obtain ⟨found, present, rfl⟩ := Option.map_eq_some_iff.mp given
  rw [present]
  rfl

/-- What a router owns stands in another hierarchy under other handles. -/
structure Twins (hierarchy mirror : Hierarchy) (router router' : RouterId)
    (twin : RouteId → RouteId) : Prop where
  roots : mirror.roots router' = (hierarchy.roots router).map twin
  route? : ∀ id, hierarchy.owner? id = some router → mirror.route? (twin id) = hierarchy.route? id
  children : ∀ id, hierarchy.owner? id = some router →
    mirror.children (twin id) = (hierarchy.children id).map twin

theorem selectAmong_mirrors {ids : List RouteId}
    (each : ∀ id ∈ ids, Run.Mirrors twin (Outcome.rename twin)
      (hierarchy.select id arrival segments) (mirror.select (twin id) arrival segments)) :
    Run.Mirrors twin (Outcome.rename twin) (hierarchy.selectAmong arrival segments ids)
      (mirror.selectAmong arrival segments (ids.map twin)) := by
  induction ids with
  | nil => exact .pure _ _
  | cons id ids ih =>
    rw [List.map_cons, selectAmong_cons, selectAmong_cons]
    refine (each id List.mem_cons_self).bind fun outcome => ?_
    cases outcome with
    | noMatch => exact ih fun other member => each other (List.mem_cons_of_mem id member)
    | redirect target => exact .pure _ _
    | chain first rest => exact .pure _ _

namespace Twins

variable (twins : Twins hierarchy mirror router router' twin) (forest : hierarchy.Forest)
  (mirrored : mirror.Forest)
include twins forest mirrored

theorem select_mirrors (owned : hierarchy.owner? id = some router) :
    Run.Mirrors twin (Outcome.rename twin) (hierarchy.select id arrival segments)
      (mirror.select (twin id) arrival segments) := by
  induction id using forest.below_wellFounded.induction generalizing segments with
  | _ id ih =>
    obtain ⟨route, found⟩ := forest.exists_route owned
    rw [forest.select_of_route? found,
      mirrored.select_of_route? ((twins.route? id owned).trans found), twins.children id owned,
      List.isEmpty_map]
    refine Route.answer_mirrors fun rest => selectAmong_mirrors fun child listed => ?_
    have above : hierarchy.Above id child := forest.above_of_mem_children listed
    exact ih child above ((forest.owner?_of_parent above).trans owned)

/-- Paths with the same address are matched alike. -/
theorem selectPath_mirrors {config config' : Config}
    (given : hierarchy.config? router = some config)
    (given' : mirror.config? router' = some config') (context : Value)
    (same : Address.parse? config path = Address.parse? config' path') :
    Run.Mirrors twin (Outcome.rename twin) (hierarchy.selectPath router context path)
      (mirror.selectPath router' context path') := by
  rw [← config_of_config? given, ← config_of_config? given'] at same
  cases parsed : Address.parse? ((hierarchy.router? router).elim .unmounted Router.config) path with
  | none =>
    obtain ⟨calls, result⟩ := selectPath_of_outside context parsed
    obtain ⟨calls', result'⟩ := selectPath_of_outside context (same.symm.trans parsed)
    exact ⟨by rw [calls, calls']; rfl, by rw [result, result']; rfl⟩
  | some address =>
    obtain ⟨calls, result⟩ := selectPath_of_address context parsed
    obtain ⟨calls', result'⟩ := selectPath_of_address context (same.symm.trans parsed)
    have among : Run.Mirrors twin (Outcome.rename twin)
        (hierarchy.selectAmong (.ofAddress context address) address.segments
          (hierarchy.roots router))
        (mirror.selectAmong (.ofAddress context address) address.segments
          (mirror.roots router')) := by
      rw [twins.roots]
      refine selectAmong_mirrors fun root listed => twins.select_mirrors forest mirrored ?_
      exact forest.owner?_eq_some_iff.mpr ⟨root, listed, .refl⟩
    exact ⟨by rw [calls, calls', among.calls], by rw [result, result', among.result]⟩

/-- Paths with the same address are dispatched alike. -/
theorem dispatch_mirrors {config config' : Config}
    (given : hierarchy.config? router = some config)
    (given' : mirror.config? router' = some config') (context : Value)
    (same : Address.parse? config path = Address.parse? config' path') :
    Run.Mirrors twin (Dispatch.rename twin) (hierarchy.dispatch router context path)
      (mirror.dispatch router' context path') := by
  refine (twins.selectPath_mirrors forest mirrored given given' context same).bind fun outcome => ?_
  rw [Outcome.selections_rename]
  refine (Selection.handleAll_mirrors outcome.selections).bind fun _ => ?_
  rw [Dispatch.ofOutcome_rename]
  exact .pure _ _

/-! ## The way up -/

/-- An owned route has the same lineage on both sides. -/
theorem lineage_twin (owned : hierarchy.owner? id = some router) :
    mirror.lineage (twin id) = (hierarchy.lineage id).map twin ∧
      mirror.owner? (twin id) = some router' := by
  induction id using forest.above_wellFounded.induction with
  | _ id ih =>
    cases placed : hierarchy.parent? id with
    | none =>
      rw [forest.owner?_of_top placed] at owned
      have root : id ∈ hierarchy.roots router :=
        (forest.mem_members_iff (.router router) id).mpr (Placement.router?_eq_some_iff.mp owned)
      have root' : twin id ∈ mirror.roots router' := by
        rw [twins.roots]
        exact List.mem_map_of_mem root
      have placed' := mirrored.parent?_of_mem_roots root'
      rw [forest.lineage_of_top placed, mirrored.lineage_of_top placed']
      exact ⟨rfl, mirrored.owner?_eq_some_iff.mpr ⟨twin id, root', .refl⟩⟩
    | some parent =>
      have owned' : hierarchy.owner? parent = some router :=
        (forest.owner?_of_parent placed).symm.trans owned
      have child : id ∈ hierarchy.children parent :=
        (forest.mem_members_iff (.route parent) id).mpr (parent?_eq_some_iff.mp placed)
      have child' : twin id ∈ mirror.children (twin parent) := by
        rw [twins.children parent owned']
        exact List.mem_map_of_mem child
      have placed' := mirrored.above_of_mem_children child'
      obtain ⟨lineage, owner⟩ := ih parent placed owned'
      rw [forest.lineage_of_parent placed, mirrored.lineage_of_parent placed', lineage,
        List.map_append, mirrored.owner?_of_parent placed']
      exact ⟨rfl, owner⟩

end Twins

end Hierarchy

end RouteTree
