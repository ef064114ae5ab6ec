import RouteTree.Proofs.Hierarchy.Preorder
import RouteTree.Proofs.Selection.Answer
import Mathlib.Data.List.Flatten

/-! # The calls of a traversal

A traversal visits routes in the order of registration and leaves branches that fail for good. Its
calls are therefore a part of one fixed list, which has the extractor and the guard of every route
in that order; everything about their number and order is read off that list. Which of the entries
are really called depends on the way down: `Reaches` says what every route above a visited one has
done.
-/

namespace RouteTree

/-- The callbacks that a route may have. -/
inductive Call.Kind where
  | extractor
  | guard
  | handler
  deriving DecidableEq, Repr

namespace Call

/-- The route whose callback is called. -/
def route : Call → RouteId
  | .extractor route _ => route
  | .guard route _ => route
  | .handler route _ => route

def kind : Call → Kind
  | .extractor _ _ => .extractor
  | .guard _ _ => .guard
  | .handler _ _ => .handler

/-- Which callback of which route is called, whatever it is given. -/
def slot (call : Call) : RouteId × Kind :=
  (call.route, call.kind)

/-- The callbacks of a route that a traversal may call, in their order. -/
def slotsOf (id : RouteId) : List (RouteId × Kind) :=
  [(id, .extractor), (id, .guard)]

theorem mem_flatMap_slotsOf_iff {ids : List RouteId} {slot : RouteId × Kind} :
    slot ∈ ids.flatMap slotsOf ↔ slot.1 ∈ ids ∧ slot.2 ≠ .handler := by
  obtain ⟨id, kind⟩ := slot
  cases kind <;> simp [slotsOf]

theorem nodup_flatMap_slotsOf {ids : List RouteId} (distinct : ids.Nodup) :
    (ids.flatMap slotsOf).Nodup := by
  refine List.nodup_flatMap.mpr ⟨fun id _ => by simp [slotsOf], distinct.imp ?_⟩
  intro first second different slot inFirst inSecond
  simp only [slotsOf, List.mem_cons, List.not_mem_nil, or_false] at inFirst inSecond
  rcases inFirst with rfl | rfl <;> rcases inSecond with same | same <;>
    exact different (congrArg Prod.fst same)

/-- Of calls that differ in their slots, one slot picks one. -/
theorem filter_slot_eq {calls : List Call} {call : Call} (once : (calls.map slot).Nodup)
    (member : call ∈ calls) : calls.filter (fun other => other.slot = call.slot) = [call] := by
  induction calls with
  | nil => simp at member
  | cons head rest ih =>
    rw [List.map_cons, List.nodup_cons] at once
    rcases List.mem_cons.mp member with rfl | later
    · have others : rest.filter (fun other => other.slot = call.slot) = [] := by
        refine List.filter_eq_nil_iff.mpr fun other listed same => once.1 ?_
        rw [← of_decide_eq_true same]
        exact List.mem_map_of_mem listed
      simp [others]
    · have different : head.slot ≠ call.slot := fun same =>
        once.1 (same ▸ List.mem_map_of_mem later)
      simp [different, ih once.2 later]

end Call

namespace Route

variable {route : Route} {id : RouteId} {arrival : Arrival} {segments values : List String}
  {params : Params} {request : Request}

/-- The calls that a route makes when it is offered some segments. -/
inductive Makes (route : Route) (id : RouteId) (arrival : Arrival) (segments : List String) :
    Call → Prop
  /-- The extractor is given what the route captures. -/
  | extractor {values : List String} (present : route.extractor.isSome = true)
      (captured : route.captures? segments = some values) :
      Makes route id arrival segments (.extractor id values)
  /-- The guard is given the caller's context and the parameters that were extracted. -/
  | guard {values : List String} {params : Params} (present : route.guard.isSome = true)
      (captured : route.captures? segments = some values)
      (extracted : route.extraction arrival values = .ok (some params)) :
      Makes route id arrival segments (.guard id ⟨arrival.context, params⟩)

theorem Makes.route_eq {call : Call} (makes : route.Makes id arrival segments call) :
    call.route = id := by
  cases makes <;> rfl

theorem calls_extract (route : Route) (id : RouteId) (arrival : Arrival) (values : List String) :
    (route.extract id arrival values).calls =
      if route.extractor.isSome then [.extractor id values] else [] := by
  rw [extract]
  cases route.extractor with
  | none => rfl
  | some extractor =>
    simp only [Option.isSome_some, if_true]
    cases extractor values arrival.search <;> rfl

theorem calls_consult (route : Route) (id : RouteId) (request : Request) :
    (route.consult id request).calls =
      if route.guard.isSome then [.guard id request] else [] := by
  rw [consult]
  cases route.guard with
  | none => rfl
  | some guard =>
    simp only [Option.isSome_some, if_true]
    cases guard request <;> rfl

/-- The guard is asked only with parameters, and after the extractor. -/
theorem calls_judge (route : Route) (id : RouteId) (arrival : Arrival) (values : List String) :
    (route.judge id arrival values).calls = (route.extract id arrival values).calls ++
      match route.extraction arrival values with
      | .ok (some params) => (route.consult id ⟨arrival.context, params⟩).calls
      | _ => [] := by
  have result := route.result_extract id arrival values
  rw [judge]
  cases extracted : route.extraction arrival values with
  | error failure =>
    rw [extracted] at result
    simp [Run.bind_of_error result]
  | ok extraction =>
    rw [extracted] at result
    cases extraction with
    | none => simp [Run.bind_of_ok result]
    | some params =>
      simp only [Run.bind_of_ok result, List.append_cancel_left_eq]
      cases ruled : (route.consult id ⟨arrival.context, params⟩).result with
      | error failure => simp [Run.bind_of_error ruled]
      | ok outcome =>
        rw [Run.bind_of_ok ruled]
        cases outcome <;> exact List.append_nil _

/-- At one route no more is called than its extractor and then its guard. -/
theorem slots_judge_sublist (route : Route) (id : RouteId) (arrival : Arrival)
    (values : List String) :
    ((route.judge id arrival values).calls.map Call.slot).Sublist (Call.slotsOf id) := by
  have extracts : ((route.extract id arrival values).calls.map Call.slot).Sublist
      [(id, .extractor)] := by
    rw [calls_extract]
    split <;> simp [Call.slot, Call.route, Call.kind]
  have consults : ∀ request, ((route.consult id request).calls.map Call.slot).Sublist
      [(id, .guard)] := by
    intro request
    rw [calls_consult]
    split <;> simp [Call.slot, Call.route, Call.kind]
  rw [calls_judge, List.map_append]
  refine extracts.append ?_
  split
  · exact consults _
  · exact List.nil_sublist _

theorem makes_of_mem_judge (captured : route.captures? segments = some values) {call : Call}
    (member : call ∈ (route.judge id arrival values).calls) :
    route.Makes id arrival segments call := by
  rw [calls_judge, calls_extract] at member
  rcases List.mem_append.mp member with extracts | consults
  · split at extracts
    · next present =>
      rw [List.mem_singleton.mp extracts]
      exact .extractor present captured
    · simp at extracts
  · split at consults
    · next params extracted =>
      rw [calls_consult] at consults
      split at consults
      · next present =>
        rw [List.mem_singleton.mp consults]
        exact .guard present captured extracted
      · simp at consults
    · simp at consults

/-- A route that admits a request has asked its guard, if it has one. -/
theorem Admits.guard_mem_judge (admits : route.Admits arrival segments values params)
    (present : route.guard.isSome = true) (id : RouteId) :
    .guard id ⟨arrival.context, params⟩ ∈ (route.judge id arrival values).calls := by
  simp [calls_judge, admits.extracted, calls_consult, present]

end Route

/-- A chain with the selection of a route in front comes from a chain below the route or from its
outlet. -/
theorem Tree.complete_eq_chain {route : Route} {selection : MatchKind → Selection}
    {outcome : Outcome} {first : Selection} {others : List Selection}
    (completed : complete route selection outcome = .chain first others) :
    (∃ next rest, outcome = .chain next rest ∧ first = selection .inner ∧
        others = next :: rest) ∨ (first = selection .error ∧ others = []) := by
  cases outcome with
  | redirect target => simp [complete] at completed
  | chain next rest =>
    obtain ⟨rfl, rfl⟩ := Outcome.chain.inj completed
    exact .inl ⟨next, rest, rfl, rfl, rfl⟩
  | noMatch =>
    simp only [complete] at completed
    split at completed
    · obtain ⟨rfl, rfl⟩ := Outcome.chain.inj completed
      exact .inr ⟨rfl, rfl⟩
    · contradiction

namespace Hierarchy

variable {hierarchy : Hierarchy} {arrival : Arrival} {segments : List String} {id : RouteId}
  {ids starts : List RouteId} {first : Selection} {others : List Selection}

/-- The way of a traversal from a route down to another one: every route above that one matched its
segments, had parameters, and had a guard that proceeded if it had any. -/
inductive Reaches (hierarchy : Hierarchy) (arrival : Arrival) :
    RouteId → List String → RouteId → List String → Prop
  | here {id : RouteId} {segments : List String} :
      Reaches hierarchy arrival id segments id segments
  | step {id child last : RouteId} {node : Node} {segments values rest : List String}
      {params : Params} (found : hierarchy.node? id = some node)
      (admits : node.route.Admits arrival segments values params)
      (listed : child ∈ node.children)
      (onward : Reaches hierarchy arrival child (node.route.leftover segments) last rest) :
      Reaches hierarchy arrival id segments last rest

/-- What is asked of the calls of a traversal from some starting routes. -/
structure Disciplined (hierarchy : Hierarchy) (arrival : Arrival) (starts : List RouteId)
    (segments : List String) (run : Run Outcome) : Prop where
  /-- No handler is called. -/
  noHandler : ∀ call ∈ run.calls, call.kind ≠ .handler
  /-- No callback of a route is called twice. -/
  once : (run.calls.map Call.slot).Nodup
  /-- The calls follow the order of registration, and at one route the extractor is called before
  the guard. -/
  ordered : run.calls.Pairwise fun earlier later =>
    (earlier.route = later.route ∧ earlier.kind = .extractor ∧ later.kind = .guard) ∨
      hierarchy.Precedes starts earlier.route later.route
  /-- The routes are met as a list of all routes at and below the starting ones has them, in which
  none stands twice. -/
  inPreorder : (hierarchy.preorder starts).Nodup ∧
    (run.calls.map Call.slot).Sublist ((hierarchy.preorder starts).flatMap Call.slotsOf)
  /-- A callback is called only where all routes above have let the request pass. -/
  reached : ∀ call ∈ run.calls, ∃ start ∈ starts, ∃ rest node,
    Reaches hierarchy arrival start segments call.route rest ∧
      hierarchy.node? call.route = some node ∧ node.route.Makes call.route arrival rest call
  /-- For a selected route with a guard, the guard was called once, with the context of the caller
  and the parameters of the selection. -/
  guarded : ∀ first others, run.result = .ok (.chain first others) →
    ∀ selection ∈ first :: others, ∀ route, hierarchy.route? selection.route = some route →
      route.guard.isSome = true →
        run.calls.filter (fun call => call.slot = (selection.route, .guard)) =
          [.guard selection.route ⟨arrival.context, selection.params⟩]

/-! ## Several routes -/

theorem slots_selectAmong_sublist
    (each : ∀ id ∈ ids, ((hierarchy.select id arrival segments).calls.map Call.slot).Sublist
      ((hierarchy.preorder [id]).flatMap Call.slotsOf)) :
    ((hierarchy.selectAmong arrival segments ids).calls.map Call.slot).Sublist
      ((hierarchy.preorder ids).flatMap Call.slotsOf) := by
  obtain ⟨tried, before, calls, _⟩ := exists_tried hierarchy arrival segments ids
  rw [calls, List.map_flatMap, preorder_eq_flatMap, List.flatMap_assoc]
  exact (List.Sublist.flatMap_right tried fun id member => each id (before.subset member)).trans
    (before.sublist.flatMap _)

theorem exists_mem_of_mem_calls_selectAmong {call : Call}
    (member : call ∈ (hierarchy.selectAmong arrival segments ids).calls) :
    ∃ id ∈ ids, call ∈ (hierarchy.select id arrival segments).calls := by
  obtain ⟨tried, before, calls, _⟩ := exists_tried hierarchy arrival segments ids
  rw [calls] at member
  obtain ⟨id, listed, inside⟩ := List.mem_flatMap.mp member
  exact ⟨id, before.subset listed, inside⟩

/-- A chain is that of one of the routes, and all calls of that route were made. -/
theorem exists_chain_of_selectAmong
    (selected : (hierarchy.selectAmong arrival segments ids).result = .ok (.chain first others)) :
    ∃ id ∈ ids, (hierarchy.select id arrival segments).result = .ok (.chain first others) ∧
      (hierarchy.select id arrival segments).calls ⊆
        (hierarchy.selectAmong arrival segments ids).calls := by
  obtain ⟨tried, before, calls, none | ⟨last, member, same⟩⟩ :=
    exists_tried hierarchy arrival segments ids
  · simp [selected] at none
  · refine ⟨last, before.subset member, same.symm.trans selected, fun call inside => ?_⟩
    rw [calls]
    exact List.mem_flatMap.mpr ⟨last, member, inside⟩

/-! ## From a route down -/

namespace Forest

variable (forest : hierarchy.Forest)
include forest

theorem slots_select_sublist (id : RouteId) (arrival : Arrival) (segments : List String) :
    ((hierarchy.select id arrival segments).calls.map Call.slot).Sublist
      ((hierarchy.preorder [id]).flatMap Call.slotsOf) := by
  induction id using forest.below_wellFounded.induction generalizing segments with
  | _ id ih =>
    rcases forest.select_cases id arrival segments with ⟨_, run⟩ | ⟨node, found, course⟩
    · simp [run]
    · have here := fun values => node.route.slots_judge_sublist id arrival values
      rw [forest.preorder_singleton, found, Option.elim_some, List.flatMap_cons]
      generalize hierarchy.select id arrival segments = run at course
      cases course with
      | untaken => exact List.nil_sublist _
      | failed => exact List.sublist_append_of_sublist_left (here _)
      | refused => exact List.sublist_append_of_sublist_left (here _)
      | redirected => exact List.sublist_append_of_sublist_left (here _)
      | ended => exact List.sublist_append_of_sublist_left (here _)
      | handedOn =>
        rw [List.map_append]
        exact (here _).append (slots_selectAmong_sublist fun child listed =>
          ih child (forest.parent?_of_mem_children found listed) _)

theorem reaches_of_mem_calls {call : Call}
    (member : call ∈ (hierarchy.select id arrival segments).calls) :
    ∃ rest node, Reaches hierarchy arrival id segments call.route rest ∧
      hierarchy.node? call.route = some node ∧ node.route.Makes call.route arrival rest call := by
  induction id using forest.below_wellFounded.induction generalizing segments with
  | _ id ih =>
    rcases forest.select_cases id arrival segments with ⟨_, run⟩ | ⟨node, found, course⟩
    · simp [run] at member
    · have here : ∀ {values}, node.route.captures? segments = some values →
          call ∈ (node.route.judge id arrival values).calls →
            ∃ rest node, Reaches hierarchy arrival id segments call.route rest ∧
              hierarchy.node? call.route = some node ∧
                node.route.Makes call.route arrival rest call := by
        intro values captured inside
        have makes := Route.makes_of_mem_judge captured inside
        rw [makes.route_eq]
        exact ⟨segments, node, .here, found, makes⟩
      generalize hierarchy.select id arrival segments = run at course member
      cases course with
      | untaken => simp at member
      | failed captured => exact here captured member
      | refused captured => exact here captured member
      | redirected captured => exact here captured member
      | ended admits => exact here admits.captured member
      | handedOn admits =>
        rcases List.mem_append.mp member with inside | below
        · exact here admits.captured inside
        · obtain ⟨child, listed, inside⟩ := exists_mem_of_mem_calls_selectAmong below
          obtain ⟨rest, last, reaches, made⟩ :=
            ih child (forest.parent?_of_mem_children found listed) inside
          exact ⟨rest, last, .step found admits listed reaches, made⟩

/-- A traversal goes down. -/
theorem reflTransGen_of_reaches {last : RouteId} {rest : List String}
    (reaches : Reaches hierarchy arrival id segments last rest) :
    Relation.ReflTransGen hierarchy.Above id last := by
  induction reaches with
  | here => exact .refl
  | step found _ listed _ ih => exact .head (forest.parent?_of_mem_children found listed) ih

theorem guard_mem_of_chain
    (selected : (hierarchy.select id arrival segments).result = .ok (.chain first others)) :
    ∀ selection ∈ first :: others, ∀ route, hierarchy.route? selection.route = some route →
      route.guard.isSome = true → .guard selection.route ⟨arrival.context, selection.params⟩ ∈
        (hierarchy.select id arrival segments).calls := by
  induction id using forest.below_wellFounded.induction generalizing segments first others with
  | _ id ih =>
    rcases forest.select_cases id arrival segments with ⟨_, run⟩ | ⟨node, found, course⟩
    · simp [run] at selected
    · generalize hierarchy.select id arrival segments = run at course selected
      -- The guard of the route itself was asked with the parameters that its selection carries.
      have here : ∀ {values params kind}, node.route.Admits arrival segments values params →
          ∀ route, hierarchy.route? id = some route → route.guard.isSome = true →
            .guard id ⟨arrival.context, (node.route.selection id arrival values params kind).params⟩
              ∈ (node.route.judge id arrival values).calls := by
        intro values params kind admits route present guarded
        obtain rfl := Option.some.inj ((route?_of_node? found).symm.trans present)
        exact admits.guard_mem_judge guarded id
      cases course with
      | untaken => simp at selected
      | failed => simp at selected
      | refused => simp at selected
      | redirected => simp at selected
      | ended admits =>
        obtain ⟨rfl, rfl⟩ := Outcome.chain.inj (Except.ok.inj selected)
        intro selection member
        obtain rfl := List.mem_singleton.mp member
        exact here admits
      | handedOn admits =>
        cases below : (hierarchy.selectAmong arrival (node.route.leftover segments)
          node.children).result with
        | error failure => simp [below, Except.map] at selected
        | ok outcome =>
          simp only [below, Except.map, Except.ok.injEq] at selected
          intro selection member route present guarded
          rcases Tree.complete_eq_chain selected with ⟨next, rest, rfl, rfl, rfl⟩ | ⟨rfl, rfl⟩
          · rcases List.mem_cons.mp member with rfl | later
            · exact List.mem_append_left _ (here admits route present guarded)
            · obtain ⟨child, listed, chain, made⟩ := exists_chain_of_selectAmong below
              exact List.mem_append_right _ (made (ih child
                (forest.parent?_of_mem_children found listed) chain selection later route present
                guarded))
          · obtain rfl := List.mem_singleton.mp member
            exact List.mem_append_left _ (here admits route present guarded)

/-- A traversal from siblings, or from routes without parents, is disciplined. -/
theorem disciplined (distinct : starts.Nodup)
    (siblings : ∀ first ∈ starts, ∀ second ∈ starts,
      hierarchy.parent? first = hierarchy.parent? second) {run : Run Outcome}
    (calls : run.calls = (hierarchy.selectAmong arrival segments starts).calls)
    (result : run.result = (hierarchy.selectAmong arrival segments starts).result) :
    Disciplined hierarchy arrival starts segments run := by
  have listed := forest.preorder_nodup distinct siblings
  have slots : (run.calls.map Call.slot).Sublist
      ((hierarchy.preorder starts).flatMap Call.slotsOf) := by
    rw [calls]
    exact slots_selectAmong_sublist fun id _ => forest.slots_select_sublist id arrival segments
  have once := slots.nodup (Call.nodup_flatMap_slotsOf listed)
  refine ⟨?_, once, ?_, ⟨listed, slots⟩, ?_, ?_⟩
  · intro call member
    exact (Call.mem_flatMap_slotsOf_iff.mp (slots.subset (List.mem_map_of_mem member))).2
  · have order : ((hierarchy.preorder starts).flatMap Call.slotsOf).Pairwise fun earlier later =>
        (earlier.1 = later.1 ∧ earlier.2 = .extractor ∧ later.2 = .guard) ∨
          hierarchy.Precedes starts earlier.1 later.1 := by
      refine List.pairwise_flatMap.mpr ⟨fun id _ => by simp [Call.slotsOf], ?_⟩
      refine (forest.preorder_pairwise starts).imp fun {id other} precedes => ?_
      intro earlier first later second
      simp only [Call.slotsOf, List.mem_cons, List.not_mem_nil, or_false] at first second
      rcases first with rfl | rfl <;> rcases second with rfl | rfl <;> exact .inr precedes
    exact List.pairwise_map.mp (order.sublist slots)
  · intro call member
    rw [calls] at member
    obtain ⟨start, started, inside⟩ := exists_mem_of_mem_calls_selectAmong member
    obtain ⟨rest, node, reached⟩ := forest.reaches_of_mem_calls inside
    exact ⟨start, started, rest, node, reached⟩
  · intro first others selected selection member route present guarded
    rw [result] at selected
    obtain ⟨id, _, chain, made⟩ := exists_chain_of_selectAmong selected
    have asked := made (forest.guard_mem_of_chain chain selection member route present guarded)
    rw [← calls] at asked
    exact Call.filter_slot_eq once asked

end Forest

/-- The calls of every traversal are disciplined: those of a route from itself down, and those of a
router from its root routes down for the address of a path. Outside the mount nothing is called. -/
theorem callbacks_are_disciplined (edits : List Edit) :
    (∀ id arrival segments, Disciplined (build edits) arrival [id] segments
      ((build edits).select id arrival segments)) ∧
    ∀ router context path,
      match Address.parse? (((build edits).router? router).elim .unmounted Router.config) path with
      | none => ((build edits).selectPath router context path).calls = []
      | some address => Disciplined (build edits) (.ofAddress context address)
          ((build edits).roots router) address.segments
          ((build edits).selectPath router context path) := by
  have forest := forest_build edits
  constructor
  · intro id arrival segments
    have alone := selectAmong_singleton (build edits) id arrival segments
    refine forest.disciplined (List.nodup_singleton id) ?_ (by rw [alone]) (by rw [alone])
    intro first member second other
    rw [List.mem_singleton.mp member, List.mem_singleton.mp other]
  · intro router context path
    split
    · next outside => exact (selectPath_of_outside context outside).1
    · next address inside =>
      obtain ⟨calls, result⟩ := selectPath_of_address context inside
      refine forest.disciplined (forest.members_nodup (.router router)) ?_ calls result
      intro first member second other
      rw [forest.parent?_of_mem_roots member, forest.parent?_of_mem_roots other]

end Hierarchy

end RouteTree
