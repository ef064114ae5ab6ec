import RouteTree.Proofs.Hierarchy.Descent
import RouteTree.Proofs.Link.Filling
import RouteTree.Proofs.Selection.Exhaustive

/-! # Following a trail

A trail is a line of routes, each the child of the one before, that the arguments lead a traversal
along: every route is filled in and lets the request pass, no sibling registered before it has
anything to offer, and the last one may end the address. Offered the segments of the whole trail,
its first route answers with one selection for each route of it.
-/

namespace RouteTree

theorem Ending.firstResult_eq_noMatch_iff {endings : List Ending} :
    firstResult endings = .ok .noMatch ↔ endings = [] := by
  cases endings with
  | nil => simp [firstResult]
  | cons ending others => cases ending <;> simp [firstResult, result]

namespace Route

/-- A route that a request made from the arguments passes. -/
structure Passes (route : Route) (arrival : Arrival) (arguments : Entries) : Prop where
  wellFormed : ∀ pattern ∈ route.pattern, pattern.WellFormed
  noExtractor : route.extractor = none
  searched : ∀ pattern ∈ route.pattern, ∀ name ∈ pattern.searchNames,
    arrival.search.getAll name = (arguments.valueOf name).plainItems
  proceeds : route.ruling ⟨arrival.context, route.filledParams arguments⟩ = .ok .proceed

/-- The selection of a route that was filled in. -/
def filledSelection (route : Route) (id : RouteId) (arrival : Arrival) (arguments : Entries)
    (kind : MatchKind) : Selection :=
  route.selection id arrival (route.filledValues arguments) (route.filledParams arguments) kind

namespace Passes

variable {route : Route} {arrival : Arrival} {arguments : Entries}

theorem extraction_eq (passes : route.Passes arrival arguments) :
    route.extraction arrival (route.filledValues arguments) =
      .ok (some (route.filledParams arguments)) := by
  rw [extraction, passes.noExtractor]
  exact congrArg (fun params => Except.ok (some params))
    (defaultParams_of_filled passes.wellFormed passes.searched)

/-- A route that nothing is left over for ends the trail. -/
theorem endings_last (passes : route.Passes arrival arguments)
    (ends : route.endsWith arrival.trailingSlash = true) (id : RouteId) (children : List Tree) :
    Tree.endings arrival (route.filledSegments arguments) (.node id route children) =
      [.chain (route.filledSelection id arrival arguments .index) []] := by
  have captured := captures?_filledSegments passes.wellFormed arguments []
  have leftover := route.leftover_filledSegments arguments []
  rw [List.append_nil] at captured leftover
  simp only [Tree.endings, captured, leftover, ends, passes.extraction_eq, passes.proceeds]
  rfl

/-- A route with children hands on what is left over and puts itself in front of their chains. -/
theorem endings_step (passes : route.Passes arrival arguments) {rest : List String}
    (more : rest ≠ []) (id : RouteId) {children : List Tree} (parent : children ≠ []) :
    Tree.endings arrival (route.filledSegments arguments ++ rest) (.node id route children) =
      (Tree.endingsOfAll arrival rest children).map
          (.below (route.filledSelection id arrival arguments .inner)) ++
        if route.outlet.isNull then []
        else [.chain (route.filledSelection id arrival arguments .error) []] := by
  have captured := captures?_filledSegments passes.wellFormed arguments rest
  have leftover := route.leftover_filledSegments arguments rest
  have alive : ¬ (rest ≠ [] ∧ children.isEmpty = true ∧ route.outlet.isNull = true) := by
    rintro ⟨_, childless, _⟩
    exact parent (List.isEmpty_iff.mp childless)
  simp only [Tree.endings, captured, leftover, passes.extraction_eq, passes.proceeds, more,
    false_and, if_false, alive]
  rfl

end Passes

end Route

namespace Hierarchy

/-- A line of routes with the selections that a traversal along it makes. -/
inductive Trail (hierarchy : Hierarchy) (arrival : Arrival) (arguments : Entries) :
    RouteId → List RouteId → Selection → List Selection → Prop
  | last {id : RouteId} {node : Node} (found : hierarchy.node? id = some node)
      (passes : node.route.Passes arrival arguments)
      (ends : node.route.endsWith arrival.trailingSlash = true) :
      Trail hierarchy arrival arguments id []
        (node.route.filledSelection id arrival arguments .index) []
  | step {id next : RouteId} {node : Node} {rest before after : List RouteId} {first : Selection}
      {others : List Selection} (found : hierarchy.node? id = some node)
      (passes : node.route.Passes arrival arguments)
      (listed : node.children = before ++ next :: after)
      (silent : ∀ earlier ∈ before, hierarchy.endings earlier arrival
        (hierarchy.filledSegments arguments (next :: rest)) = [])
      (more : hierarchy.filledSegments arguments (next :: rest) ≠ [])
      (onward : Trail hierarchy arrival arguments next rest first others) :
      Trail hierarchy arrival arguments id (next :: rest)
        (node.route.filledSelection id arrival arguments .inner) (first :: others)

/-- The first ending of several routes is that of the first one that has any. -/
theorem head?_flatMap_endings {hierarchy : Hierarchy} {arrival : Arrival} {segments : List String}
    {before : List RouteId} {id : RouteId} {first : Selection} {others : List Selection}
    (silent : ∀ earlier ∈ before, hierarchy.endings earlier arrival segments = [])
    (found : (hierarchy.endings id arrival segments).head? = some (.chain first others))
    (after : List RouteId) :
    ((before ++ id :: after).flatMap fun other =>
      hierarchy.endings other arrival segments).head? = some (.chain first others) := by
  obtain ⟨endings, whole⟩ := List.head?_eq_some_iff.mp found
  rw [List.flatMap_append, List.flatMap_eq_nil_iff.mpr silent, List.flatMap_cons, whole]
  rfl

namespace Trail

variable {hierarchy : Hierarchy} {arrival : Arrival} {arguments : Entries} {id : RouteId}
  {rest : List RouteId} {first : Selection} {others : List Selection}

/-- A traversal follows a trail to its end. -/
theorem head?_endings (forest : hierarchy.Forest)
    (trail : Trail hierarchy arrival arguments id rest first others) :
    (hierarchy.endings id arrival (hierarchy.filledSegments arguments (id :: rest))).head? =
      some (.chain first others) := by
  induction trail with
  | @last id node found passes ends =>
    have segments : hierarchy.filledSegments arguments [id] = node.route.filledSegments arguments :=
      by simp [filledSegments, route?, found]
    rw [endings, forest.tree?_eq, found, segments]
    simp [passes.endings_last ends]
  | @step id next node rest before after first others found passes listed silent more onward ih =>
    have segments : hierarchy.filledSegments arguments (id :: next :: rest) =
        node.route.filledSegments arguments ++
          hierarchy.filledSegments arguments (next :: rest) := by
      simp [filledSegments, route?, found]
    have below := head?_flatMap_endings silent ih after
    rw [← listed, ← endingsOfAll_filterMap_tree?] at below
    obtain ⟨endings, whole⟩ := List.head?_eq_some_iff.mp below
    have parent : node.children.filterMap hierarchy.tree? ≠ [] := by
      intro childless
      rw [childless, Tree.endingsOfAll] at whole
      contradiction
    rw [Hierarchy.endings, forest.tree?_eq, found, segments]
    simp [passes.endings_step more id parent, whole, Ending.below]

theorem routes_eq (trail : Trail hierarchy arrival arguments id rest first others) :
    (first :: others).map Selection.route = id :: rest := by
  induction trail with
  | last found passes ends => rfl
  | step found passes listed silent more onward ih => rw [List.map_cons, ih]; rfl

/-- All routes of a trail but the last hand segments on. -/
theorem kinds_eq (trail : Trail hierarchy arrival arguments id rest first others) :
    (first :: others).map Selection.kind = List.replicate others.length .inner ++ [.index] := by
  induction trail with
  | last found passes ends => rfl
  | step found passes listed silent more onward ih =>
    rw [List.map_cons, ih, List.length_cons, List.replicate_succ]
    rfl

/-- Every route of a trail is asked for with the parameters that it was filled in with. -/
theorem request_eq (trail : Trail hierarchy arrival arguments id rest first others) :
    ∀ selection ∈ first :: others, ∃ route, hierarchy.route? selection.route = some route ∧
      selection.request = ⟨arrival.context, route.filledParams arguments⟩ := by
  induction trail with
  | @last id node found passes ends =>
    intro selection member
    obtain rfl := List.mem_singleton.mp member
    exact ⟨node.route, by rw [route?]; exact congrArg _ found, rfl⟩
  | @step id next node rest before after first others found passes listed silent more onward ih =>
    intro selection member
    rcases List.mem_cons.mp member with rfl | later
    · exact ⟨node.route, by rw [route?]; exact congrArg _ found, rfl⟩
    · exact ih selection later

end Trail

end Hierarchy

end RouteTree
