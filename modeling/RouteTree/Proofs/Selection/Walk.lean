import RouteTree.Proofs.Hierarchy.Descent
import RouteTree.Proofs.Selection.Exhaustive

/-! # The walk behind a chain

A chain of selections is the trace of a walk down a hierarchy: every route of it admitted the
request, all but the last handed the segments it left over to one of its children, and the last one
either had none left or answers with its outlet. `Trail` leads a traversal along given routes; here
the traversal is given, and `Walk` says what it must have done.
-/

namespace RouteTree

/-- A chain is the result of a list of endings only if it stands among them. -/
theorem Ending.mem_of_firstResult {endings : List Ending} {first : Selection}
    {others : List Selection} (result : firstResult endings = .ok (.chain first others)) :
    .chain first others ∈ endings := by
  cases endings with
  | nil => simp [firstResult] at result
  | cons ending rest =>
    cases ending with
    | chain head tail =>
      simp only [firstResult, Ending.result, Except.ok.injEq, Outcome.chain.injEq] at result
      obtain ⟨rfl, rfl⟩ := result
      exact List.mem_cons_self
    | redirect target => simp [firstResult, Ending.result] at result
    | failure cause => simp [firstResult, Ending.result] at result

/-- A route lets a request for some segments pass: they match, the extractor gives parameters, and
the guard proceeds. -/
structure Route.Admits (route : Route) (arrival : Arrival) (segments values : List String)
    (params : Params) : Prop where
  captured : route.captures? segments = some values
  extracted : route.extraction arrival values = .ok (some params)
  proceeded : route.ruling ⟨arrival.context, params⟩ = .ok .proceed

namespace Tree

variable {arrival : Arrival} {segments values : List String} {route : Route} {params : Params}
  {id : RouteId} {children : List Tree} {first : Selection} {others : List Selection}

/-- A route that offers a chain has admitted the request, and allows the slash if it may end the
chain. -/
theorem admits_of_chain_mem_endings
    (member : .chain first others ∈ endings arrival segments (.node id route children)) :
    ∃ values params, route.Admits arrival segments values params ∧
      (route.leftover segments = [] → route.endsWith arrival.trailingSlash = true) ∧
      Ending.chain first others ∈
        if route.leftover segments = [] then
          [Ending.chain (route.selection id arrival values params .index) []]
        else
          (endingsOfAll arrival (route.leftover segments) children).map
              (Ending.below (route.selection id arrival values params .inner)) ++
            if route.outlet.isNull then []
            else [Ending.chain (route.selection id arrival values params .error) []] := by
  rw [endings] at member
  cases captured : route.captures? segments with
  | none => simp [captured] at member
  | some values =>
    simp only [captured] at member
    by_cases slash : route.leftover segments = [] ∧ route.endsWith arrival.trailingSlash = false
    · simp [slash] at member
    rw [if_neg slash] at member
    by_cases dead : route.leftover segments ≠ [] ∧ children.isEmpty = true ∧
        route.outlet.isNull = true
    · simp [dead] at member
    rw [if_neg dead] at member
    cases extracted : route.extraction arrival values with
    | error failure => simp [extracted] at member
    | ok extraction =>
      cases extraction with
      | none => simp [extracted] at member
      | some params =>
        simp only [extracted] at member
        cases proceeded : route.ruling ⟨arrival.context, params⟩ with
        | error failure => simp [proceeded] at member
        | ok ruled =>
          cases ruled with
          | reject => simp [proceeded] at member
          | redirect target => simp [proceeded] at member
          | proceed =>
            simp only [proceeded] at member
            refine ⟨values, params, ⟨captured, extracted, proceeded⟩, ?_, member⟩
            intro done
            simpa [done] using slash

/-- A route that offers a chain ends it if nothing is left over, and otherwise stands in front of a
chain of its children or answers with its outlet. -/
theorem chain_mem_endings
    (member : .chain first others ∈ endings arrival segments (.node id route children)) :
    ∃ values params, route.Admits arrival segments values params ∧
      ((route.leftover segments = [] ∧ route.endsWith arrival.trailingSlash = true ∧
          first = route.selection id arrival values params .index ∧ others = []) ∨
        (route.leftover segments ≠ [] ∧ first = route.selection id arrival values params .inner ∧
          ∃ next rest, others = next :: rest ∧
            .chain next rest ∈ endingsOfAll arrival (route.leftover segments) children) ∨
        (route.leftover segments ≠ [] ∧ route.outlet.isNull = false ∧
          first = route.selection id arrival values params .error ∧ others = [])) := by
  obtain ⟨values, params, admits, slash, offered⟩ := admits_of_chain_mem_endings member
  refine ⟨values, params, admits, ?_⟩
  by_cases done : route.leftover segments = []
  · rw [if_pos done, List.mem_singleton] at offered
    obtain ⟨rfl, rfl⟩ := Ending.chain.inj offered
    exact .inl ⟨done, slash done, rfl, rfl⟩
  rw [if_neg done] at offered
  rcases List.mem_append.mp offered with below | outlet
  · obtain ⟨ending, listed, same⟩ := List.mem_map.mp below
    cases ending with
    | chain next rest =>
      obtain ⟨rfl, rfl⟩ := Ending.chain.inj same
      exact .inr (.inl ⟨done, rfl, next, rest, rfl, listed⟩)
    | redirect target => contradiction
    | failure cause => contradiction
  · split_ifs at outlet with null
    · simp at outlet
    · obtain ⟨rfl, rfl⟩ := Ending.chain.inj (List.mem_singleton.mp outlet)
      exact .inr (.inr ⟨done, by simpa using null, rfl, rfl⟩)

end Tree

namespace Hierarchy

/-- A walk from a route down for some segments, with the selections it makes. -/
inductive Walk (hierarchy : Hierarchy) (arrival : Arrival) :
    RouteId → List String → Selection → List Selection → Prop
  | index {id : RouteId} {node : Node} {segments values : List String} {params : Params}
      (found : hierarchy.node? id = some node)
      (admits : node.route.Admits arrival segments values params)
      (done : node.route.leftover segments = [])
      (ends : node.route.endsWith arrival.trailingSlash = true) :
      Walk hierarchy arrival id segments (node.route.selection id arrival values params .index) []
  | error {id : RouteId} {node : Node} {segments values : List String} {params : Params}
      (found : hierarchy.node? id = some node)
      (admits : node.route.Admits arrival segments values params)
      (more : node.route.leftover segments ≠ [])
      (outlet : node.route.outlet.isNull = false) :
      Walk hierarchy arrival id segments (node.route.selection id arrival values params .error) []
  | inner {id child : RouteId} {node : Node} {segments values : List String} {params : Params}
      {next : Selection} {rest : List Selection}
      (found : hierarchy.node? id = some node)
      (admits : node.route.Admits arrival segments values params)
      (more : node.route.leftover segments ≠ []) (listed : child ∈ node.children)
      (onward : Walk hierarchy arrival child (node.route.leftover segments) next rest) :
      Walk hierarchy arrival id segments (node.route.selection id arrival values params .inner)
        (next :: rest)

variable {hierarchy : Hierarchy} {arrival : Arrival} {id : RouteId} {router : RouterId}
  {segments : List String} {first : Selection} {others : List Selection}

namespace Forest

variable (forest : hierarchy.Forest)
include forest

/-- Every chain that a route has to offer is made by a walk. -/
theorem walk_of_mem_endings (member : .chain first others ∈ hierarchy.endings id arrival segments) :
    Walk hierarchy arrival id segments first others := by
  -- The chain has one selection for each step down, so its length carries the induction.
  induction others generalizing id segments first with
  | nil =>
    rw [endings, forest.tree?_eq] at member
    cases found : hierarchy.node? id with
    | none => simp [found] at member
    | some node =>
      simp only [found, Option.map_some, Option.toList_some, List.flatMap_singleton] at member
      obtain ⟨values, params, admits, ⟨done, ends, rfl, _⟩ | ⟨_, _, _, _, same, _⟩ |
        ⟨more, outlet, rfl, _⟩⟩ := Tree.chain_mem_endings member
      · exact .index found admits done ends
      · contradiction
      · exact .error found admits more outlet
  | cons next rest ih =>
    rw [endings, forest.tree?_eq] at member
    cases found : hierarchy.node? id with
    | none => simp [found] at member
    | some node =>
      simp only [found, Option.map_some, Option.toList_some, List.flatMap_singleton] at member
      obtain ⟨values, params, admits, ⟨_, _, _, same⟩ | ⟨more, rfl, _, _, same, offered⟩ |
        ⟨_, _, _, same⟩⟩ := Tree.chain_mem_endings member
      · contradiction
      · obtain ⟨rfl, rfl⟩ := List.cons.inj same
        rw [endingsOfAll_filterMap_tree?] at offered
        obtain ⟨child, listed, onward⟩ := List.mem_flatMap.mp offered
        exact .inner found admits more listed (ih onward)
      · contradiction

theorem walk_of_select
    (selected : (hierarchy.select id arrival segments).result = .ok (.chain first others)) :
    Walk hierarchy arrival id segments first others := by
  rw [result_select] at selected
  exact forest.walk_of_mem_endings (Ending.mem_of_firstResult selected)

/-- A chain that a router gives for a path is made by a walk from one of its root routes for the
segments of the address. -/
theorem walk_of_selectPath {context : Value} {path : String}
    (selected : (hierarchy.selectPath router context path).result = .ok (.chain first others)) :
    ∃ config address root, hierarchy.config? router = some config ∧
      Address.parse? config path = some address ∧ root ∈ hierarchy.roots router ∧
        Walk hierarchy (.ofAddress context address) root address.segments first others := by
  rw [result_selectPath] at selected
  have member := Ending.mem_of_firstResult selected
  rw [pathEndings] at member
  split at member
  · simp at member
  next address parsed =>
  obtain ⟨root, listed, offered⟩ := List.mem_flatMap.mp member
  cases present : hierarchy.router? router with
  | none => simp [roots, present] at listed
  | some found =>
    rw [present, Option.elim_some] at parsed
    exact ⟨found.config, address, root, by simp [config?, present], parsed, listed,
      forest.walk_of_mem_endings offered⟩

end Forest

/-- A walk starts with the selection of its first route. -/
theorem Walk.route_eq (walk : Walk hierarchy arrival id segments first others) :
    first.route = id := by
  cases walk <;> rfl

end Hierarchy

end RouteTree
