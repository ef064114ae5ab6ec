import RouteTree.Proofs.Hierarchy.Descent
import RouteTree.Proofs.Selection.Walk

/-! # A traversal step by step

What a route answers depends on its own callbacks and on what is answered below it for the segments
that it leaves over. `Route.answer` is this one step, with the answer from below as an argument, and
`Answer` lists the six courses it can take. In a forest, the traversal from a route is the step of
that route over the traversals from its children, which are tried in order up to the first one that
finds something.
-/

namespace RouteTree

namespace Route

variable {route : Route} {id : RouteId} {isLeaf isLeaf' : Bool} {arrival : Arrival}
  {segments values : List String} {params : Params} {run : Run Outcome}
  {below below' : List String → Run Outcome}

/-- What a route answers when `below` is what is answered below it for the segments left over. -/
def answer (route : Route) (id : RouteId) (isLeaf : Bool) (arrival : Arrival)
    (segments : List String) (below : List String → Run Outcome) : Run Outcome :=
  match route.take? isLeaf arrival.trailingSlash segments with
  | none => pure .noMatch
  | some (values, rest) => do
    match ← route.judge id arrival values with
    | .refused => return .noMatch
    | .redirect target => return .redirect target
    | .admitted params =>
      let selection := route.selection id arrival values params
      if rest.isEmpty then return .chain (selection .index) []
      else return Tree.complete route selection (← below rest)

/-- The courses that a step can take. -/
inductive Answer (route : Route) (id : RouteId) (arrival : Arrival) (segments : List String)
    (below : List String → Run Outcome) : Run Outcome → Prop
  /-- The segments do not fit, or nothing could answer for those that are left over. -/
  | untaken : Answer route id arrival segments below (pure .noMatch)
  /-- A callback failed, or the guard decided nothing. -/
  | failed {values : List String} {failure : Failure}
      (captured : route.captures? segments = some values)
      (judged : (route.judge id arrival values).result = .error failure) :
      Answer route id arrival segments below
        ⟨(route.judge id arrival values).calls, (route.judge id arrival values).records,
          .error failure⟩
  | refused {values : List String} (captured : route.captures? segments = some values)
      (judged : (route.judge id arrival values).result = .ok .refused) :
      Answer route id arrival segments below
        ⟨(route.judge id arrival values).calls, (route.judge id arrival values).records,
          .ok .noMatch⟩
  | redirected {values : List String} {target : String}
      (captured : route.captures? segments = some values)
      (judged : (route.judge id arrival values).result = .ok (.redirect target)) :
      Answer route id arrival segments below
        ⟨(route.judge id arrival values).calls, (route.judge id arrival values).records,
          .ok (.redirect target)⟩
  /-- The route admits the request and nothing is left over. -/
  | ended {values : List String} {params : Params}
      (admits : route.Admits arrival segments values params) (done : route.leftover segments = [])
      (ends : route.endsWith arrival.trailingSlash = true) :
      Answer route id arrival segments below
        ⟨(route.judge id arrival values).calls, (route.judge id arrival values).records,
          .ok (.chain (route.selection id arrival values params .index) [])⟩
  /-- The route admits the request and hands on what is left over. -/
  | handedOn {values : List String} {params : Params}
      (admits : route.Admits arrival segments values params)
      (more : route.leftover segments ≠ []) :
      Answer route id arrival segments below
        ⟨(route.judge id arrival values).calls ++ (below (route.leftover segments)).calls,
          (route.judge id arrival values).records ++ (below (route.leftover segments)).records,
          (below (route.leftover segments)).result.map
            (Tree.complete route (route.selection id arrival values params))⟩

theorem take?_eq_some {trailingSlash : Bool} {values rest : List String}
    (taken : route.take? isLeaf trailingSlash segments = some (values, rest)) :
    route.captures? segments = some values ∧ rest = route.leftover segments ∧
      (route.leftover segments = [] → route.endsWith trailingSlash = true) := by
  rw [take?_eq] at taken
  obtain ⟨found, captured, kept⟩ := Option.bind_eq_some_iff.mp taken
  split_ifs at kept with slash dead
  obtain ⟨rfl, rfl⟩ := Prod.mk.inj (Option.some.inj kept)
  exact ⟨captured, rfl, fun done => by simpa [done] using slash⟩

/-- A verdict that admits a route comes from parameters and a guard that proceeds. -/
theorem admits_of_judge (captured : route.captures? segments = some values)
    (judged : (route.judge id arrival values).result = .ok (.admitted params)) :
    route.Admits arrival segments values params := by
  rw [result_judge] at judged
  cases extracted : route.extraction arrival values with
  | error failure => simp [extracted, Except.bind] at judged
  | ok extraction =>
    cases extraction with
    | none => simp [extracted, Except.bind] at judged
    | some found =>
      cases ruled : route.ruling ⟨arrival.context, found⟩ with
      | error failure => simp [extracted, ruled, Except.bind, Except.map] at judged
      | ok outcome =>
        cases outcome with
        | reject => simp [extracted, ruled, Except.bind, Except.map, verdict] at judged
        | redirect target => simp [extracted, ruled, Except.bind, Except.map, verdict] at judged
        | proceed =>
          obtain rfl : found = params := by
            simpa [extracted, ruled, Except.bind, Except.map, verdict] using judged
          exact ⟨captured, extracted, ruled⟩

/-- A route that admits a request has a verdict that says so. -/
theorem Admits.result_judge (admits : route.Admits arrival segments values params) (id : RouteId) :
    (route.judge id arrival values).result = .ok (.admitted params) := by
  rw [Route.result_judge, admits.extracted]
  change (route.ruling ⟨arrival.context, params⟩).map _ = _
  rw [admits.proceeded]
  rfl

/-- A step takes one of these courses. -/
theorem answer_cases (route : Route) (id : RouteId) (isLeaf : Bool) (arrival : Arrival)
    (segments : List String) (below : List String → Run Outcome) :
    Answer route id arrival segments below
      (route.answer id isLeaf arrival segments below) := by
  rw [answer]
  cases taken : route.take? isLeaf arrival.trailingSlash segments with
  | none => exact .untaken
  | some step =>
    obtain ⟨values, rest⟩ := step
    obtain ⟨captured, rfl, ends⟩ := take?_eq_some taken
    cases judged : (route.judge id arrival values).result with
    | error failure =>
      simp only [Run.bind_of_error judged]
      exact .failed captured judged
    | ok verdict =>
      simp only [Run.bind_of_ok judged]
      cases verdict with
      | refused => simpa using Answer.refused captured judged
      | redirect target => simpa using Answer.redirected captured judged
      | admitted params =>
        have admits := admits_of_judge captured judged
        by_cases done : route.leftover segments = []
        · simpa [done] using Answer.ended admits done (ends done)
        · simpa [done, Run.map_eq] using Answer.handedOn admits done

/-- The course of a route that admits the request and has segments left over. -/
theorem Answer.eq_of_admits (course : route.Answer id arrival segments below run)
    (answered : run.result ≠ .ok .noMatch)
    (admits : route.Admits arrival segments values params) (more : route.leftover segments ≠ []) :
    run = ⟨(route.judge id arrival values).calls ++ (below (route.leftover segments)).calls,
      (route.judge id arrival values).records ++ (below (route.leftover segments)).records,
      (below (route.leftover segments)).result.map
        (Tree.complete route (route.selection id arrival values params))⟩ := by
  have admitted := admits.result_judge id
  have same : ∀ {values'}, route.captures? segments = some values' → values' = values :=
    fun captured => Option.some.inj (captured.symm.trans admits.captured)
  cases course with
  | untaken => exact (answered rfl).elim
  | failed captured judged =>
    obtain rfl := same captured
    rw [judged] at admitted
    contradiction
  | refused captured judged => exact (answered rfl).elim
  | redirected captured judged =>
    obtain rfl := same captured
    rw [judged] at admitted
    cases admitted
  | ended _ done _ => exact (more done).elim
  | handedOn admits' more' =>
    obtain rfl := same admits'.captured
    rw [admits'.result_judge id] at admitted
    obtain rfl := Verdict.admitted.inj (Except.ok.inj admitted)
    rfl

/-- A route that takes its segments still takes them when it has more children. -/
theorem take?_of_isLeaf {trailingSlash : Bool} {step : List String × List String}
    (leaf : isLeaf' = true → isLeaf = true)
    (taken : route.take? isLeaf trailingSlash segments = some step) :
    route.take? isLeaf' trailingSlash segments = some step := by
  rw [take?_eq] at taken ⊢
  obtain ⟨values, captured, kept⟩ := Option.bind_eq_some_iff.mp taken
  rw [captured, Option.bind_some]
  split_ifs at kept with slash dead
  rw [if_neg slash, if_neg fun dead' => dead ⟨dead'.1, leaf dead'.2.1, dead'.2.2⟩]
  exact kept

/-- A step that answers does so whatever stands below the route, if what it hands on is answered
alike. -/
theorem answer_congr (leaf : isLeaf' = true → isLeaf = true)
    (answered : (route.answer id isLeaf arrival segments below).result ≠ .ok .noMatch)
    (same : ∀ values params, route.Admits arrival segments values params →
      route.leftover segments ≠ [] →
        below' (route.leftover segments) = below (route.leftover segments)) :
    route.answer id isLeaf' arrival segments below' =
      route.answer id isLeaf arrival segments below := by
  cases taken : route.take? isLeaf arrival.trailingSlash segments with
  | none =>
    rw [answer, taken] at answered
    exact (answered rfl).elim
  | some step =>
    obtain ⟨values, rest⟩ := step
    obtain ⟨captured, rfl, _⟩ := take?_eq_some taken
    have taken' : route.take? isLeaf' arrival.trailingSlash segments =
        some (values, route.leftover segments) := take?_of_isLeaf leaf taken
    rw [answer, answer, taken, taken']
    cases judged : (route.judge id arrival values).result with
    | error failure => simp only [Run.bind_of_error judged]
    | ok verdict =>
      simp only [Run.bind_of_ok judged]
      cases verdict with
      | refused => rfl
      | redirect target => rfl
      | admitted params =>
        by_cases done : route.leftover segments = []
        · simp only [done, List.isEmpty_nil, if_true]
        · simp only [same values params (admits_of_judge captured judged) done]

end Route

namespace Hierarchy

variable {hierarchy before after : Hierarchy} {arrival : Arrival} {segments : List String}
  {id : RouteId} {ids : List RouteId} {router : RouterId} {path : String}

/-- Match segments against the trees below several routes, until one answers. -/
def selectAmong (hierarchy : Hierarchy) (arrival : Arrival) (segments : List String)
    (ids : List RouteId) : Run Outcome :=
  Tree.selectFirst arrival segments (ids.filterMap hierarchy.tree?)

theorem selectAmong_nil : hierarchy.selectAmong arrival segments [] = pure .noMatch := rfl

theorem selectAmong_cons (id : RouteId) (ids : List RouteId) :
    hierarchy.selectAmong arrival segments (id :: ids) = do
      match ← hierarchy.select id arrival segments with
      | .noMatch => hierarchy.selectAmong arrival segments ids
      | found => return found := by
  rw [selectAmong, select]
  cases present : hierarchy.tree? id with
  | none => rw [List.filterMap_cons_none present, pure_bind]; rfl
  | some tree => rw [List.filterMap_cons_some present, Tree.selectFirst]; rfl

/-- The next route is tried after one that does not match. -/
theorem selectAmong_cons_of_noMatch
    (passed : (hierarchy.select id arrival segments).result = .ok .noMatch) :
    hierarchy.selectAmong arrival segments (id :: ids) =
      ⟨(hierarchy.select id arrival segments).calls ++
          (hierarchy.selectAmong arrival segments ids).calls,
        (hierarchy.select id arrival segments).records ++
          (hierarchy.selectAmong arrival segments ids).records,
        (hierarchy.selectAmong arrival segments ids).result⟩ := by
  rw [selectAmong_cons, Run.bind_of_ok passed]

/-- No route is tried after one that finds something or fails. -/
theorem selectAmong_cons_of_found
    (found : (hierarchy.select id arrival segments).result ≠ .ok .noMatch) :
    hierarchy.selectAmong arrival segments (id :: ids) =
      hierarchy.select id arrival segments := by
  rw [selectAmong_cons]
  generalize hierarchy.select id arrival segments = run at found
  obtain ⟨calls, records, result⟩ := run
  cases result with
  | error failure => rw [Run.bind_of_error rfl]
  | ok outcome =>
    rw [Run.bind_of_ok rfl]
    cases outcome with
    | noMatch => exact (found rfl).elim
    | redirect target => simp
    | chain first others => simp

/-- Routes at the end are not tried when one before them answers. -/
theorem selectAmong_append (more : List RouteId)
    (found : (hierarchy.selectAmong arrival segments ids).result ≠ .ok .noMatch) :
    hierarchy.selectAmong arrival segments (ids ++ more) =
      hierarchy.selectAmong arrival segments ids := by
  induction ids with
  | nil => exact (found rfl).elim
  | cons id ids ih =>
    rw [List.cons_append]
    by_cases passed : (hierarchy.select id arrival segments).result = .ok .noMatch
    · rw [selectAmong_cons_of_noMatch passed] at found
      rw [selectAmong_cons_of_noMatch passed, selectAmong_cons_of_noMatch passed, ih found]
    · rw [selectAmong_cons_of_found passed, selectAmong_cons_of_found passed]

theorem selectAmong_singleton (hierarchy : Hierarchy) (id : RouteId) (arrival : Arrival)
    (segments : List String) :
    hierarchy.selectAmong arrival segments [id] = hierarchy.select id arrival segments := by
  by_cases passed : (hierarchy.select id arrival segments).result = .ok .noMatch
  · rw [selectAmong_cons_of_noMatch passed, selectAmong_nil, Run.calls_pure, Run.records_pure,
      Run.result_pure, List.append_nil, List.append_nil, ← passed]
  · exact selectAmong_cons_of_found passed

/-- Several routes are tried in order, up to the first one whose answer is given. -/
theorem exists_tried (hierarchy : Hierarchy) (arrival : Arrival) (segments : List String)
    (ids : List RouteId) :
    ∃ tried, tried <+: ids ∧
      (hierarchy.selectAmong arrival segments ids).calls =
        tried.flatMap (fun id => (hierarchy.select id arrival segments).calls) ∧
      ((hierarchy.selectAmong arrival segments ids).result = .ok .noMatch ∨
        ∃ last ∈ tried, (hierarchy.selectAmong arrival segments ids).result =
          (hierarchy.select last arrival segments).result) := by
  induction ids with
  | nil => exact ⟨[], List.prefix_rfl, rfl, .inl rfl⟩
  | cons id ids ih =>
    by_cases passed : (hierarchy.select id arrival segments).result = .ok .noMatch
    · obtain ⟨tried, before, calls, result⟩ := ih
      rw [selectAmong_cons_of_noMatch passed]
      refine ⟨id :: tried, List.cons_prefix_cons.mpr ⟨rfl, before⟩, ?_, ?_⟩
      · rw [List.flatMap_cons, ← calls]
      · rcases result with none | ⟨last, member, same⟩
        · exact .inl none
        · exact .inr ⟨last, List.mem_cons_of_mem id member, same⟩
    · rw [selectAmong_cons_of_found passed]
      exact ⟨[id], List.cons_prefix_cons.mpr ⟨rfl, List.nil_prefix⟩, by simp,
        .inr ⟨id, List.mem_singleton_self id, rfl⟩⟩

/-- The traversal from a route is its step over the traversals from its children. -/
theorem Forest.select_eq (forest : hierarchy.Forest) (id : RouteId) (arrival : Arrival)
    (segments : List String) :
    hierarchy.select id arrival segments = (hierarchy.node? id).elim (pure .noMatch) fun node =>
      node.route.answer id node.children.isEmpty arrival segments fun rest =>
        hierarchy.selectAmong arrival rest node.children := by
  rw [select, forest.tree?_eq]
  cases found : hierarchy.node? id with
  | none => rfl
  | some node =>
    rw [Option.map_some, Option.elim_some, ← forest.isEmpty_filterMap_tree? found]
    simp only [Tree.select]
    rfl

/-- The step of a route, with its children as they are listed. -/
theorem Forest.select_of_route? (forest : hierarchy.Forest) {route : Route}
    (found : hierarchy.route? id = some route) :
    hierarchy.select id arrival segments =
      route.answer id (hierarchy.children id).isEmpty arrival segments fun rest =>
        hierarchy.selectAmong arrival rest (hierarchy.children id) := by
  obtain ⟨node, present, rfl⟩ := Option.map_eq_some_iff.mp found
  rw [forest.select_eq, present, Hierarchy.children, present]
  rfl

theorem Forest.select_of_route?_eq_none (forest : hierarchy.Forest)
    (absent : hierarchy.route? id = none) :
    hierarchy.select id arrival segments = pure .noMatch := by
  rw [forest.select_eq, Option.map_eq_none_iff.mp absent]
  rfl

/-- The traversal from a route takes one of the courses of its step. -/
theorem Forest.select_cases (forest : hierarchy.Forest) (id : RouteId) (arrival : Arrival)
    (segments : List String) :
    (hierarchy.node? id = none ∧ hierarchy.select id arrival segments = pure .noMatch) ∨
      ∃ node, hierarchy.node? id = some node ∧ node.route.Answer id arrival segments
        (fun rest => hierarchy.selectAmong arrival rest node.children)
        (hierarchy.select id arrival segments) := by
  rw [forest.select_eq]
  cases found : hierarchy.node? id with
  | none => exact .inl ⟨rfl, rfl⟩
  | some node => exact .inr ⟨node, rfl, node.route.answer_cases id _ arrival segments _⟩

/-- A path that lies outside the mount calls nothing. -/
theorem selectPath_of_outside (context : Value)
    (outside : Address.parse? ((hierarchy.router? router).elim .unmounted Router.config) path =
      none) :
    (hierarchy.selectPath router context path).calls = [] ∧
      (hierarchy.selectPath router context path).result = .ok .noMatch := by
  simp only [selectPath, outside]
  exact ⟨rfl, rfl⟩

/-- A path is matched by trying the root routes on its address. -/
theorem selectPath_of_address {address : Address} (context : Value)
    (inside : Address.parse? ((hierarchy.router? router).elim .unmounted Router.config) path =
      some address) :
    (hierarchy.selectPath router context path).calls =
        (hierarchy.selectAmong (.ofAddress context address) address.segments
          (hierarchy.roots router)).calls ∧
      (hierarchy.selectPath router context path).result =
        (hierarchy.selectAmong (.ofAddress context address) address.segments
          (hierarchy.roots router)).result := by
  simp only [selectPath, inside]
  change _ ∧ _ = (hierarchy.selectAddress router context address).result
  change Run.calls (hierarchy.selectAddress router context address >>= _) =
    (hierarchy.selectAddress router context address).calls ∧ _
  cases result : (hierarchy.selectAddress router context address).result with
  | error failure => rw [Run.bind_of_error result]; exact ⟨rfl, rfl⟩
  | ok outcome =>
    rw [Run.bind_of_ok result]
    cases outcome <;> exact ⟨List.append_nil _, rfl⟩

end Hierarchy

end RouteTree
