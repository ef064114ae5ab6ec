import RouteTree.Proofs.Selection.Stopping

/-! # A traversal ends where it is stopped

Redirects are handed up as ordinary answers through every level of a traversal, and failures end it
on the way. Either way no callback is called any more: a traversal whose calls all let it go on ends
with a chain or without a match and logs nothing, and any other one ends with the first call that
stops it, has the answer of that call, and logs a redirect once, where it was asked for. `Course`
says this of one run; it is kept when calls that let a traversal go on are put in front and when a
route above hands an answer on.
-/

namespace RouteTree

/-- What is logged for a call of a route that stops a traversal with an answer. -/
def Route.stopRecords (route : Route) (id : RouteId) : Except Failure Outcome → List Record
  | .ok (.redirect target) => [.redirectRequested id route.literal target]
  | _ => []

namespace Route

/-- A call stops a traversal with one answer only. -/
theorem Stops.unique {route : Route} {arrival : Arrival} {call : Call}
    {first second : Except Failure Outcome} (left : route.Stops arrival call first)
    (right : route.Stops arrival call second) : first = second := by
  cases left with
  | extractor failed =>
    cases right with
    | extractor failed' => exact congrArg _ (Except.error.inj (failed.symm.trans failed'))
  | guard failed =>
    cases right with
    | guard failed' => exact congrArg _ (Except.error.inj (failed.symm.trans failed'))
    | redirect ruled =>
      rw [failed] at ruled
      contradiction
  | redirect ruled =>
    cases right with
    | guard failed =>
      rw [ruled] at failed
      contradiction
    | redirect ruled' =>
      rw [ruled] at ruled'
      cases ruled'
      rfl

/-- A callback of a route fails by itself when it is called so. -/
inductive Raises (route : Route) (arrival : Arrival) : Call → CallbackError → Prop
  | extractor {id : RouteId} {values : List String} {extractor : Extractor} {error : CallbackError}
      (present : route.extractor = some extractor)
      (raised : extractor values arrival.search = .error error) :
      Raises route arrival (.extractor id values) error
  | guard {id : RouteId} {request : Request} {guard : Guard} {error : CallbackError}
      (present : route.guard = some guard) (raised : guard request = .error error) :
      Raises route arrival (.guard id request) error

/-- A traversal is stopped with the failure of a callback as it is. -/
theorem Raises.stops {route : Route} {arrival : Arrival} {call : Call} {error : CallbackError}
    (raises : route.Raises arrival call error) :
    route.Stops arrival call (.error (.callback error)) := by
  cases raises with
  | extractor present raised =>
    exact .extractor (extraction_of_raised present raised)
  | guard present raised =>
    exact .guard (ruling_of_raised present raised)

/-- A reply that decides nothing stops a traversal with an error that names its kind. -/
theorem stops_of_undecided {route : Route} {arrival : Arrival} {id : RouteId} {request : Request}
    {guard : Guard} {value : Value} (present : route.guard = some guard)
    (replied : guard request = .ok value) (undecided : ∀ decided, value.decision ≠ .ok decided) :
    route.Stops arrival (.guard id request) (.error (.undecided value.kindName)) := by
  simp only [ne_eq, Value.decision_eq_ok_iff] at undecided
  exact .guard (ruling_eq_error_iff.mpr ⟨guard, present, .inr ⟨value, replied, undecided, rfl⟩⟩)

/-- Without an extractor, extracting does not fail. -/
theorem calls_extract_of_error {route : Route} {arrival : Arrival} {values : List String}
    {failure : Failure} (failed : route.extraction arrival values = .error failure) (id : RouteId) :
    (route.extract id arrival values).calls = [.extractor id values] := by
  rw [calls_extract, if_pos]
  by_contra absent
  rw [Option.not_isSome_iff_eq_none] at absent
  simp [extraction, absent] at failed

/-- Without a guard the ruling is to proceed, so any other one was asked for. -/
theorem calls_consult_of_ruling {route : Route} {request : Request}
    (other : route.ruling request ≠ .ok .proceed) (id : RouteId) :
    (route.consult id request).calls = [.guard id request] := by
  rw [calls_consult, if_pos]
  by_contra absent
  rw [Option.not_isSome_iff_eq_none] at absent
  simp [ruling, absent] at other

/-- Extracting logs nothing. -/
theorem records_extract (route : Route) (id : RouteId) (arrival : Arrival)
    (values : List String) : (route.extract id arrival values).records = [] := by
  rw [extract]
  cases route.extractor with
  | none => rfl
  | some extractor =>
    dsimp only
    cases extractor values arrival.search <;> rfl

/-- Asking the guard logs nothing. -/
theorem records_consult (route : Route) (id : RouteId) (request : Request) :
    (route.consult id request).records = [] := by
  rw [consult]
  cases route.guard with
  | none => rfl
  | some guard =>
    dsimp only
    cases guard request <;> rfl

/-- The verdict on a route is logged if it is a redirect. -/
theorem records_judge (route : Route) (id : RouteId) (arrival : Arrival) (values : List String) :
    (route.judge id arrival values).records =
      route.stopRecords id ((route.judge id arrival values).result.map Verdict.outcome) := by
  have extracting := route.records_extract id arrival values
  rw [judge]
  cases extracted : (route.extract id arrival values).result with
  | error failure => rw [Run.bind_of_error extracted]; exact extracting
  | ok extraction =>
    rw [Run.bind_of_ok extracted, extracting]
    cases extraction with
    | none => rfl
    | some params =>
      have consulting := route.records_consult id ⟨arrival.context, params⟩
      cases ruled : (route.consult id ⟨arrival.context, params⟩).result with
      | error failure => simp only [Run.bind_of_error ruled, consulting]; rfl
      | ok outcome =>
        simp only [Run.bind_of_ok ruled, consulting]
        cases outcome <;> rfl

end Route

namespace Hierarchy

variable {hierarchy : Hierarchy} {arrival : Arrival} {segments values : List String} {id : RouteId}
  {ids : List RouteId} {route : Route} {run : Run Outcome} {calls : List Call}

/-- A call after which a traversal goes on. -/
def Passes (hierarchy : Hierarchy) (arrival : Arrival) (call : Call) : Prop :=
  ∀ route answer, hierarchy.route? call.route = some route → ¬ route.Stops arrival call answer

/-- How the calls of a traversal, what it logs and what it answers belong together. -/
inductive Course (hierarchy : Hierarchy) (arrival : Arrival) : Run Outcome → Prop
  /-- No call stops the traversal. -/
  | passed {calls : List Call} {outcome : Outcome}
      (passes : ∀ call ∈ calls, hierarchy.Passes arrival call)
      (unredirected : ∀ target, outcome ≠ .redirect target) :
      Course hierarchy arrival ⟨calls, [], .ok outcome⟩
  /-- The last call, and none before it, stops the traversal. -/
  | stopped {before : List Call} {call : Call} {route : Route} {answer : Except Failure Outcome}
      (passes : ∀ earlier ∈ before, hierarchy.Passes arrival earlier)
      (present : hierarchy.route? call.route = some route)
      (stops : route.Stops arrival call answer) :
      Course hierarchy arrival ⟨before ++ [call], route.stopRecords call.route answer, answer⟩

namespace Course

theorem noMatch : hierarchy.Course arrival (pure .noMatch) :=
  .passed (List.forall_mem_nil _) (by simp)

/-- A run that finds nothing was not stopped. -/
theorem passed_of_noMatch (course : hierarchy.Course arrival run)
    (unmatched : run.result = .ok .noMatch) :
    (∀ call ∈ run.calls, hierarchy.Passes arrival call) ∧ run.records = [] := by
  cases course with
  | passed passes => exact ⟨passes, rfl⟩
  | stopped _ _ stops => exact (stops.ne_noMatch unmatched).elim

/-- Calls that let a traversal go on may come before. -/
theorem after (course : hierarchy.Course arrival run)
    (passes : ∀ call ∈ calls, hierarchy.Passes arrival call) :
    hierarchy.Course arrival ⟨calls ++ run.calls, run.records, run.result⟩ := by
  cases course with
  | passed later unredirected =>
    exact .passed (fun call member => (List.mem_append.mp member).elim (passes call) (later call))
      unredirected
  | stopped later present stops =>
    rw [← List.append_assoc]
    refine .stopped (fun call member => ?_) present stops
    exact (List.mem_append.mp member).elim (passes call) (later call)

/-- A route above changes nothing about why a traversal ended. -/
theorem complete (course : hierarchy.Course arrival run) (above : Route)
    (selection : MatchKind → Selection) :
    hierarchy.Course arrival
      ⟨run.calls, run.records, run.result.map (Tree.complete above selection)⟩ := by
  cases course with
  | @passed calls outcome passes unredirected =>
    refine .passed passes fun target => ?_
    cases outcome with
    | noMatch =>
      rw [Tree.complete]
      split <;> simp
    | redirect other => exact (unredirected other rfl).elim
    | chain first rest => simp [Tree.complete]
  | stopped passes present stops =>
    rw [stops.map_complete]
    exact .stopped passes present stops

end Course

/-- Nothing is called after a call that stops a traversal, and its answer is the answer. -/
theorem Course.last_of_stops (course : hierarchy.Course arrival run) {before after : List Call}
    {call : Call} {answer : Except Failure Outcome} (calls : run.calls = before ++ call :: after)
    (present : hierarchy.route? call.route = some route)
    (stops : route.Stops arrival call answer) : after = [] ∧ run.result = answer := by
  cases course with
  | passed passes =>
    have member : call ∈ before ++ call :: after := by simp
    rw [← calls] at member
    exact (passes call member route answer present stops).elim
  | @stopped before' call' route' answer' passes present' stops' =>
    rcases List.eq_nil_or_concat after with rfl | ⟨others, other, rfl⟩
    · obtain ⟨-, same⟩ := List.append_inj' calls rfl
      obtain rfl : call' = call := (List.cons.inj same).1
      obtain rfl := Option.some.inj (present.symm.trans present')
      exact ⟨rfl, stops'.unique stops⟩
    · -- With a call behind it, this one stands among those that let the traversal go on.
      rw [List.concat_eq_append, ← List.cons_append, ← List.append_assoc] at calls
      obtain ⟨same, -⟩ := List.append_inj' calls rfl
      have member : call ∈ before' := by simp [same]
      exact (passes call member route answer present stops).elim

/-- A traversal that fails or redirects was stopped by its last call. -/
theorem Course.exists_last (course : hierarchy.Course arrival run)
    (aborted : ∀ outcome, run.result = .ok outcome → ∃ target, outcome = .redirect target) :
    ∃ call route, run.calls.getLast? = some call ∧ hierarchy.route? call.route = some route ∧
      route.Stops arrival call run.result ∧
        run.records = route.stopRecords call.route run.result := by
  cases course with
  | passed _ unredirected =>
    obtain ⟨target, redirects⟩ := aborted _ rfl
    exact (unredirected target redirects).elim
  | stopped _ present stops => exact ⟨_, _, List.getLast?_concat, present, stops, rfl⟩

/-- A traversal that does not redirect logs nothing. -/
theorem Course.records_eq_nil (course : hierarchy.Course arrival run)
    (unredirected : ∀ target, run.result ≠ .ok (.redirect target)) : run.records = [] := by
  cases course with
  | passed => rfl
  | stopped _ _ stops =>
    cases stops with
    | extractor => rfl
    | guard => rfl
    | redirect => exact (unredirected _ rfl).elim

/-! ## One route -/

/-- An extractor that replies lets a traversal go on. -/
theorem passes_of_extraction {extracted : Option Params}
    (present : hierarchy.route? id = some route)
    (replied : route.extraction arrival values = .ok extracted) :
    ∀ call ∈ (route.extract id arrival values).calls, hierarchy.Passes arrival call := by
  intro call member other answer found stops
  rw [Route.calls_extract] at member
  split at member
  · obtain rfl := List.mem_singleton.mp member
    obtain rfl := Option.some.inj (present.symm.trans found)
    cases stops with
    | extractor failed =>
      rw [replied] at failed
      contradiction
  · simp at member

/-- A guard that proceeds or rejects lets a traversal go on. -/
theorem passes_of_ruling (arrival : Arrival) {request : Request} {ruled : GuardOutcome}
    (present : hierarchy.route? id = some route) (decided : route.ruling request = .ok ruled)
    (stays : ∀ target, ruled ≠ .redirect target) :
    ∀ call ∈ (route.consult id request).calls, hierarchy.Passes arrival call := by
  intro call member other answer found stops
  rw [Route.calls_consult] at member
  split at member
  · obtain rfl := List.mem_singleton.mp member
    obtain rfl := Option.some.inj (present.symm.trans found)
    cases stops with
    | guard failed =>
      rw [decided] at failed
      contradiction
    | redirect redirected =>
      rw [decided] at redirected
      exact stays _ (Except.ok.inj redirected)
  · simp at member

/-- The verdict on a route says whether one of its callbacks stopped the traversal. -/
theorem course_judge (present : hierarchy.route? id = some route) (arrival : Arrival)
    (values : List String) :
    hierarchy.Course arrival
      ⟨(route.judge id arrival values).calls, (route.judge id arrival values).records,
        (route.judge id arrival values).result.map Verdict.outcome⟩ := by
  rw [Route.records_judge, Route.result_judge, Route.calls_judge]
  cases extracted : route.extraction arrival values with
  | error failure =>
    simp only [Route.calls_extract_of_error extracted]
    exact @Course.stopped _ _ [] _ _ _ (List.forall_mem_nil _) present (.extractor extracted)
  | ok extraction =>
    have before := passes_of_extraction present extracted
    cases extraction with
    | none => exact .passed (by simpa using before) (by simp [Verdict.outcome])
    | some params =>
      have asked := @Route.calls_consult_of_ruling route ⟨arrival.context, params⟩
      simp only [Except.bind]
      cases ruled : route.ruling ⟨arrival.context, params⟩ with
      | error failure =>
        simp only [asked (by simp [ruled]) id]
        exact .stopped before present (.guard ruled)
      | ok outcome =>
        by_cases redirects : ∃ target, outcome = .redirect target
        · obtain ⟨target, rfl⟩ := redirects
          simp only [asked (by simp [ruled]) id]
          exact .stopped before present (.redirect ruled)
        · have stays : ∀ target, outcome ≠ .redirect target := fun target same =>
            redirects ⟨target, same⟩
          have onward := passes_of_ruling arrival present ruled stays
          have passes := fun call member =>
            (List.mem_append.mp member).elim (before call) (onward call)
          cases outcome with
          | redirect target => exact (stays target rfl).elim
          | proceed => exact .passed passes (by simp [Route.verdict, Verdict.outcome])
          | reject => exact .passed passes (by simp [Route.verdict, Verdict.outcome])

/-! ## Several routes, and from a route down -/

theorem course_selectAmong
    (each : ∀ id ∈ ids, hierarchy.Course arrival (hierarchy.select id arrival segments)) :
    hierarchy.Course arrival (hierarchy.selectAmong arrival segments ids) := by
  induction ids with
  | nil => exact .noMatch
  | cons id ids ih =>
    have here := each id List.mem_cons_self
    by_cases unmatched : (hierarchy.select id arrival segments).result = .ok .noMatch
    · obtain ⟨passes, records⟩ := here.passed_of_noMatch unmatched
      rw [selectAmong_cons_of_noMatch unmatched, records, List.nil_append]
      exact (ih fun other listed => each other (List.mem_cons_of_mem id listed)).after passes
    · rw [selectAmong_cons_of_found unmatched]
      exact here

theorem Forest.course_select (forest : hierarchy.Forest) (id : RouteId) (arrival : Arrival)
    (segments : List String) :
    hierarchy.Course arrival (hierarchy.select id arrival segments) := by
  induction id using forest.below_wellFounded.induction generalizing segments with
  | _ id ih =>
    rcases forest.select_cases id arrival segments with ⟨_, run⟩ | ⟨node, found, course⟩
    · rw [run]
      exact .noMatch
    · have judged := fun values => course_judge (route?_of_node? found) arrival values
      generalize hierarchy.select id arrival segments = run at course
      cases course with
      | untaken => exact .noMatch
      | @failed values _ _ verdict => simpa [verdict, Except.map] using judged values
      | @refused values _ verdict =>
        simpa [verdict, Except.map, Verdict.outcome] using judged values
      | @redirected values _ _ verdict =>
        simpa [verdict, Except.map, Verdict.outcome] using judged values
      | @ended values _ admits =>
        have verdict := admits.result_judge id
        obtain ⟨passes, records⟩ := (judged values).passed_of_noMatch (by rw [verdict]; rfl)
        simp only at passes records
        rw [records]
        exact .passed passes (by simp)
      | @handedOn values _ admits =>
        have verdict := admits.result_judge id
        obtain ⟨passes, records⟩ := (judged values).passed_of_noMatch (by rw [verdict]; rfl)
        have below := course_selectAmong fun child listed =>
          ih child (forest.parent?_of_mem_children found listed) (node.route.leftover segments)
        simp only at passes records
        rw [records, List.nil_append]
        exact (below.complete _ _).after passes

/-! ## Paths -/

/-- A path is matched by trying the root routes, and a path that matches none of them is logged. -/
theorem records_selectPath_of_address {router : RouterId} {path : String} {address : Address}
    (context : Value)
    (inside : Address.parse? ((hierarchy.router? router).elim .unmounted Router.config) path =
      some address) :
    (hierarchy.selectPath router context path).records =
      (hierarchy.selectAmong (.ofAddress context address) address.segments
          (hierarchy.roots router)).records ++
        match (hierarchy.selectPath router context path).result with
        | .ok .noMatch => [.unmatched path]
        | _ => [] := by
  rw [(selectPath_of_address context inside).2]
  simp only [selectPath, inside]
  change Run.records (hierarchy.selectAddress router context address >>= _) =
    (hierarchy.selectAddress router context address).records ++
      match (hierarchy.selectAddress router context address).result with
      | .ok .noMatch => [.unmatched path]
      | _ => []
  cases result : (hierarchy.selectAddress router context address).result with
  | error failure => rw [Run.bind_of_error result]; exact (List.append_nil _).symm
  | ok outcome =>
    rw [Run.bind_of_ok result]
    cases outcome <;> rfl

/-- A path outside the mount is logged. -/
theorem records_selectPath_of_outside {router : RouterId} {path : String} (context : Value)
    (outside : Address.parse? ((hierarchy.router? router).elim .unmounted Router.config) path =
      none) :
    (hierarchy.selectPath router context path).records =
      [.outsideMount path
        ((hierarchy.router? router).elim Config.unmounted Router.config).mount] := by
  simp only [selectPath, outside]
  rfl

/-- What is asked of a traversal: it ends with the first call that stops it, and with its answer. -/
structure StopsAtOnce (hierarchy : Hierarchy) (arrival : Arrival) (run : Run Outcome) : Prop where
  /-- A traversal redirects exactly when its last call is a guard that decides so. -/
  redirect_iff : ∀ target, run.result = .ok (.redirect target) ↔
    ∃ id request route, run.calls.getLast? = some (.guard id request) ∧
      hierarchy.route? id = some route ∧ route.ruling request = .ok (.redirect target)
  /-- A traversal fails exactly when its last call fails, and in the same way. -/
  failure_iff : ∀ failure, run.result = .error failure ↔
    ∃ call route, run.calls.getLast? = some call ∧ hierarchy.route? call.route = some route ∧
      route.Stops arrival call (.error failure)
  /-- Nothing is called after a call that redirects, decides nothing or fails. -/
  last : ∀ before call after route answer, run.calls = before ++ call :: after →
    hierarchy.route? call.route = some route → route.Stops arrival call answer →
      after = [] ∧ run.result = answer
  /-- What an extractor or a guard fails with is what the traversal fails with. -/
  raised : ∀ before call after route error, run.calls = before ++ call :: after →
    hierarchy.route? call.route = some route → route.Raises arrival call error →
      after = [] ∧ run.result = .error (.callback error)
  /-- The reply of a guard that decides nothing ends the traversal with an error about its kind. -/
  undecided : ∀ before id request after route guard value,
    run.calls = before ++ .guard id request :: after → hierarchy.route? id = some route →
    route.guard = some guard → guard request = .ok value →
    (∀ decided, value.decision ≠ .ok decided) →
      after = [] ∧ run.result = .error (.undecided value.kindName)
  /-- A redirect is logged once, for the route that asked for it. -/
  redirected : ∀ target, run.result = .ok (.redirect target) →
    ∃ id request route, run.calls.getLast? = some (.guard id request) ∧
      hierarchy.route? id = some route ∧
        run.records = [.redirectRequested id route.literal target]

/-- What a traversal does for a redirect it also does when it is started for a path. -/
theorem Course.stopsAtOnce (course : hierarchy.Course arrival run) {run' : Run Outcome}
    (calls : run'.calls = run.calls) (result : run'.result = run.result)
    (records : ∀ target, run.result = .ok (.redirect target) → run'.records = run.records) :
    hierarchy.StopsAtOnce arrival run' := by
  have redirects : ∀ target, run.result = .ok (.redirect target) →
      ∃ id request route, run.calls.getLast? = some (.guard id request) ∧
        hierarchy.route? id = some route ∧ route.ruling request = .ok (.redirect target) ∧
          run.records = [.redirectRequested id route.literal target] := by
    intro target redirected
    obtain ⟨call, route, last, present, stops, logged⟩ := course.exists_last fun outcome same =>
      ⟨target, Except.ok.inj (same.symm.trans redirected)⟩
    rw [redirected] at stops logged
    cases stops with
    | redirect ruled => exact ⟨_, _, route, last, present, ruled, logged⟩
  have only : ∀ {call route answer}, run.calls.getLast? = some call →
      hierarchy.route? call.route = some route → route.Stops arrival call answer →
        run.result = answer := by
    intro call route answer last present stops
    obtain ⟨before, split⟩ := List.getLast?_eq_some_iff.mp last
    exact (course.last_of_stops split present stops).2
  have last : ∀ before call after route answer, run'.calls = before ++ call :: after →
      hierarchy.route? call.route = some route → route.Stops arrival call answer →
        after = [] ∧ run'.result = answer := by
    intro before call after route answer split present stops
    rw [calls] at split
    rw [result]
    exact course.last_of_stops split present stops
  rw [← calls, ← result] at redirects only
  refine
    { redirect_iff := fun target => ⟨fun redirected => ?_, ?_⟩
      failure_iff := fun failure => ⟨fun failed => ?_, ?_⟩
      last := last
      raised := fun before call after route error split present raises =>
        last before call after route _ split present raises.stops
      undecided := fun before id request after route guard value split present guarded replied
          undecided =>
        last before _ after route _ split present
          (Route.stops_of_undecided guarded replied undecided)
      redirected := fun target redirected => ?_ }
  · obtain ⟨id, request, route, last, present, ruled, _⟩ := redirects target redirected
    exact ⟨id, request, route, last, present, ruled⟩
  · rintro ⟨id, request, route, last, present, ruled⟩
    exact only last present (.redirect ruled)
  · rw [result] at failed
    obtain ⟨call, route, last, present, stops, _⟩ := course.exists_last fun outcome same => by
      rw [failed] at same
      contradiction
    rw [failed] at stops
    exact ⟨call, route, calls ▸ last, present, stops⟩
  · rintro ⟨call, route, last, present, stops⟩
    exact only last present stops
  · obtain ⟨id, request, route, last, present, _, logged⟩ := redirects target redirected
    exact ⟨id, request, route, last, present, (records target (result ▸ redirected)).trans logged⟩

/-- Every traversal ends with the first call that fails or redirects, from a route down and for a
path. A redirect is logged once, by the route that asked for it. For a path nothing else is logged,
except that it lies outside the mount or matches nothing, and that once. -/
theorem traversal_stops_at_once (edits : List Edit) :
    (∀ id arrival segments,
      StopsAtOnce (build edits) arrival ((build edits).select id arrival segments) ∧
        ((∀ target, ((build edits).select id arrival segments).result ≠ .ok (.redirect target)) →
          ((build edits).select id arrival segments).records = [])) ∧
    ∀ router context path,
      let config := ((build edits).router? router).elim .unmounted Router.config
      let run := (build edits).selectPath router context path
      match Address.parse? config path with
      | none =>
        run.calls = [] ∧ run.result = .ok .noMatch ∧ run.records = [.outsideMount path config.mount]
      | some address =>
        StopsAtOnce (build edits) (.ofAddress context address) run ∧
          (∀ first others, run.result = .ok (.chain first others) → run.records = []) ∧
          (∀ failure, run.result = .error failure → run.records = []) ∧
          (run.result = .ok .noMatch → run.records = [.unmatched path]) := by
  have forest := forest_build edits
  constructor
  · intro id arrival segments
    have course := forest.course_select id arrival segments
    exact ⟨course.stopsAtOnce rfl rfl fun _ _ => rfl, course.records_eq_nil⟩
  · intro router context path config run
    cases inside : Address.parse? config path with
    | none =>
      obtain ⟨calls, result⟩ := selectPath_of_outside context inside
      exact ⟨calls, result, records_selectPath_of_outside context inside⟩
    | some address =>
      obtain ⟨calls, result⟩ := selectPath_of_address context inside
      have records := records_selectPath_of_address context inside
      have course := course_selectAmong fun root (_ : root ∈ (build edits).roots router) =>
        forest.course_select root (.ofAddress context address) address.segments
      have quiet := course.records_eq_nil
      rw [← result] at quiet
      refine ⟨course.stopsAtOnce calls result fun target redirected => ?_,
        fun first others found => ?_, fun failure failed => ?_, fun unmatched => ?_⟩
      · rw [← result] at redirected
        rw [records, redirected, List.append_nil]
      · rw [records, quiet (by rw [found]; nofun), found]
        rfl
      · rw [records, quiet (by rw [failed]; nofun), failed]
        rfl
      · rw [records, quiet (by rw [unmatched]; nofun), unmatched]
        rfl

end Hierarchy

end RouteTree
