import RouteTree.Proofs.Selection.Calls

/-! # What stops a traversal

A traversal goes on behind a route that is refused and below one that is admitted. It is stopped by
a callback that fails and by a guard that redirects: what such a call answers is the answer of the
whole traversal, wherever in the tree the call was made.
-/

namespace RouteTree

/-- What a verdict answers when nothing is asked of the routes below. -/
def Verdict.outcome : Verdict → Outcome
  | .redirect target => .redirect target
  | _ => .noMatch

namespace Route

variable {route : Route} {id : RouteId} {arrival : Arrival} {segments values : List String}
  {call : Call} {answer : Except Failure Outcome}

/-- A call that stops a traversal, and the answer of the traversal then. -/
inductive Stops (route : Route) (arrival : Arrival) : Call → Except Failure Outcome → Prop
  | extractor {id : RouteId} {values : List String} {failure : Failure}
      (failed : route.extraction arrival values = .error failure) :
      Stops route arrival (.extractor id values) (.error failure)
  /-- The guard failed, or decided nothing. -/
  | guard {id : RouteId} {request : Request} {failure : Failure}
      (failed : route.ruling request = .error failure) :
      Stops route arrival (.guard id request) (.error failure)
  | redirect {id : RouteId} {request : Request} {target : String}
      (ruled : route.ruling request = .ok (.redirect target)) :
      Stops route arrival (.guard id request) (.ok (.redirect target))

theorem Stops.ne_noMatch (stops : route.Stops arrival call answer) : answer ≠ .ok .noMatch := by
  cases stops <;> nofun

/-- A route above hands on what a call answers. -/
theorem Stops.map_complete (stops : route.Stops arrival call answer) (above : Route)
    (selection : MatchKind → Selection) : answer.map (Tree.complete above selection) = answer := by
  cases stops <;> rfl

/-- A call that stops a traversal gives the verdict on its route. -/
theorem Stops.result_judge (stops : route.Stops arrival call answer)
    (captured : route.captures? segments = some values)
    (member : call ∈ (route.judge id arrival values).calls) :
    (route.judge id arrival values).result.map Verdict.outcome = answer := by
  rw [Route.result_judge]
  cases makes_of_mem_judge captured member with
  | extractor present captured' =>
    obtain rfl := Option.some.inj (captured.symm.trans captured')
    cases stops with
    | extractor failed =>
      rw [failed]
      rfl
  | guard present captured' extracted =>
    obtain rfl := Option.some.inj (captured.symm.trans captured')
    rw [extracted]
    cases stops with
    | guard failed => simp [Except.bind, failed, Except.map]
    | redirect ruled => simp [Except.bind, ruled, Except.map, verdict, Verdict.outcome]

end Route

namespace Hierarchy

variable {hierarchy : Hierarchy} {arrival : Arrival} {segments : List String} {id : RouteId}
  {ids : List RouteId} {route last : Route} {values : List String} {params : Params} {call : Call}
  {answer : Except Failure Outcome}

/-- The verdict on a route is what a call at this route answers, if the call stops the traversal. -/
theorem result_judge_of_stops (present : hierarchy.route? id = some route)
    (captured : route.captures? segments = some values)
    (found : hierarchy.route? call.route = some last) (stops : last.Stops arrival call answer)
    (member : call ∈ (route.judge id arrival values).calls) :
    (route.judge id arrival values).result.map Verdict.outcome = answer := by
  rw [(Route.makes_of_mem_judge captured member).route_eq, present] at found
  obtain rfl := Option.some.inj found
  exact stops.result_judge captured member

/-- At a route that admits the request, no call stops the traversal. -/
theorem notMem_judge_of_admits (present : hierarchy.route? id = some route)
    (admits : route.Admits arrival segments values params)
    (found : hierarchy.route? call.route = some last) (stops : last.Stops arrival call answer) :
    call ∉ (route.judge id arrival values).calls := by
  intro member
  have verdict := result_judge_of_stops present admits.captured found stops member
  rw [admits.result_judge id] at verdict
  exact stops.ne_noMatch verdict.symm

/-- Among several routes, the answer of a call that stops the traversal from one of them is that of
the traversal from all. -/
theorem result_selectAmong_of_stops (stops : route.Stops arrival call answer)
    (each : ∀ id ∈ ids, call ∈ (hierarchy.select id arrival segments).calls →
      (hierarchy.select id arrival segments).result = answer)
    (member : call ∈ (hierarchy.selectAmong arrival segments ids).calls) :
    (hierarchy.selectAmong arrival segments ids).result = answer := by
  induction ids with
  | nil => simp [selectAmong_nil] at member
  | cons id ids ih =>
    have here := each id List.mem_cons_self
    by_cases passed : (hierarchy.select id arrival segments).result = .ok .noMatch
    · rw [selectAmong_cons_of_noMatch passed] at member ⊢
      rcases List.mem_append.mp member with inside | onward
      · exact (stops.ne_noMatch ((here inside).symm.trans passed)).elim
      · exact ih (fun other listed => each other (List.mem_cons_of_mem id listed)) onward
    · rw [selectAmong_cons_of_found passed] at member ⊢
      exact here member

/-- A call that stops a traversal gives its answer. -/
theorem Forest.result_of_stops (forest : hierarchy.Forest)
    (found : hierarchy.route? call.route = some route) (stops : route.Stops arrival call answer)
    (member : call ∈ (hierarchy.select id arrival segments).calls) :
    (hierarchy.select id arrival segments).result = answer := by
  induction id using forest.below_wellFounded.induction generalizing segments with
  | _ id ih =>
    rcases forest.select_cases id arrival segments with ⟨_, run⟩ | ⟨node, present, course⟩
    · simp [run] at member
    · have placed := route?_of_node? present
      have here : ∀ {values}, node.route.captures? segments = some values →
          call ∈ (node.route.judge id arrival values).calls →
            (node.route.judge id arrival values).result.map Verdict.outcome = answer :=
        fun captured => result_judge_of_stops placed captured found stops
      generalize hierarchy.select id arrival segments = run at course member
      cases course with
      | untaken => simp at member
      | failed captured judged => simpa [judged, Except.map] using here captured member
      | refused captured judged =>
        simpa [judged, Except.map, Verdict.outcome] using here captured member
      | redirected captured judged =>
        simpa [judged, Except.map, Verdict.outcome] using here captured member
      | ended admits => exact (notMem_judge_of_admits placed admits found stops member).elim
      | handedOn admits =>
        have onward := (List.mem_append.mp member).resolve_left
          (notMem_judge_of_admits placed admits found stops)
        have below := result_selectAmong_of_stops stops (fun child listed =>
          ih child (forest.parent?_of_mem_children present listed)) onward
        rw [below]
        exact stops.map_complete _ _

end Hierarchy

end RouteTree
