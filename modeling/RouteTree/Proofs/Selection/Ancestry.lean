import RouteTree.Link
import RouteTree.Proofs.Selection.Conservation

/-! # A chain is a part of a lineage

A walk goes down by children and a lineage is found by climbing to parents. Both go the same way:
the routes of a chain are those of the lineage of its last route, from the route on where the walk
started. A router starts at a root route, so its chains are whole lineages and their routes its own.
-/

namespace RouteTree.Hierarchy

variable {hierarchy : Hierarchy} {arrival : Arrival} {id last : RouteId} {router : RouterId}
  {rest : List RouteId} {segments : List String} {first : Selection} {others : List Selection}

namespace Forest

variable (forest : hierarchy.Forest)
include forest

/-- A descent from a route stands at the end of the lineage of the route that it leads to, and what
stands before it is above the route where it starts. -/
theorem lineage_of_isChain (chain : (id :: rest).IsChain hierarchy.Above)
    (ends : (id :: rest).getLast? = some last) :
    ∃ above, hierarchy.lineage id = above ++ [id] ∧
      hierarchy.lineage last = above ++ id :: rest := by
  induction rest generalizing id with
  | nil =>
    obtain rfl : id = last := by simpa using ends
    obtain ⟨above, lineage⟩ := forest.lineage_eq_append id
    exact ⟨above, lineage, lineage⟩
  | cons next rest ih =>
    obtain ⟨placed, onward⟩ := List.isChain_cons_cons.mp chain
    rw [List.getLast?_cons_cons] at ends
    obtain ⟨before, toNext, toLast⟩ := ih onward ends
    obtain ⟨above, lineage⟩ := forest.lineage_eq_append id
    refine ⟨above, lineage, ?_⟩
    rw [forest.lineage_of_parent placed, List.append_left_inj] at toNext
    rw [toLast, ← toNext, lineage, List.append_assoc]
    rfl

/-- The routes of a descent have the owner of the route where it starts. -/
theorem owner?_of_isChain (chain : (id :: rest).IsChain hierarchy.Above) :
    ∀ member ∈ id :: rest, hierarchy.owner? member = hierarchy.owner? id := by
  induction rest generalizing id with
  | nil => simp
  | cons next rest ih =>
    obtain ⟨placed, onward⟩ := List.isChain_cons_cons.mp chain
    intro member listed
    rcases List.mem_cons.mp listed with rfl | below
    · rfl
    · rw [ih onward member below, forest.owner?_of_parent placed]

/-- The routes of a walk are a descent from the route where it starts. -/
theorem routes_of_walk (walk : Walk hierarchy arrival id segments first others) :
    (first :: others).map Selection.route = id :: others.map Selection.route ∧
      (id :: others.map Selection.route).IsChain hierarchy.Above := by
  obtain ⟨_, _, _, _, chain, accounts⟩ := walk.accounts
  have descends := accounts.descends
  rw [← chain, List.map_cons, walk.route_eq] at descends
  exact ⟨by rw [List.map_cons, walk.route_eq],
    descends.imp fun _ _ member => forest.above_of_mem_children member⟩

/-- What is selected stands at or below the route where the traversal started. -/
theorem reflTransGen_of_walk {first : Selection} {others : List Selection}
    (walk : Walk hierarchy arrival id segments first others) :
    ∀ selection ∈ first :: others, Relation.ReflTransGen hierarchy.Above id selection.route := by
  intro selection member
  obtain ⟨routes, chain⟩ := forest.routes_of_walk walk
  have listed := List.mem_map_of_mem (f := Selection.route) member
  rw [routes] at listed
  have ordered : (id :: others.map Selection.route).Pairwise
      (Relation.ReflTransGen hierarchy.Above) :=
    List.isChain_iff_pairwise.mp (chain.imp fun _ _ above => .single above)
  rcases List.mem_cons.mp listed with same | below
  · rw [same]
  · exact (List.pairwise_cons.mp ordered).1 _ below

/-- The routes of a walk stand at the end of the lineage of the last one. -/
theorem lineage_of_walk (walk : Walk hierarchy arrival id segments first others) :
    ∃ above, hierarchy.lineage id = above ++ [id] ∧
      hierarchy.lineage ((first :: others).getLast (List.cons_ne_nil _ _)).route =
        above ++ (first :: others).map Selection.route := by
  obtain ⟨routes, chain⟩ := forest.routes_of_walk walk
  have ends : (id :: others.map Selection.route).getLast? =
      some ((first :: others).getLast (List.cons_ne_nil _ _)).route := by
    rw [← routes, List.getLast?_map, List.getLast?_eq_some_getLast (List.cons_ne_nil _ _)]
    rfl
  rw [routes]
  exact forest.lineage_of_isChain chain ends

/-- The routes of a walk are those of a lineage from the route on where the walk starts. -/
theorem routes_of_walk_eq_dropWhile (walk : Walk hierarchy arrival id segments first others) :
    (first :: others).map Selection.route =
      (hierarchy.lineage ((first :: others).getLast (List.cons_ne_nil _ _)).route).dropWhile
        (· != id) := by
  obtain ⟨above, start, lineage⟩ := forest.lineage_of_walk walk
  have before : ∀ route ∈ above, (route != id) = true := by
    intro route member
    have distinct := forest.lineage_nodup id
    rw [start] at distinct
    have different := (List.nodup_append.mp distinct).2.2 route member id List.mem_cons_self
    simpa using different
  rw [lineage, (forest.routes_of_walk walk).1, List.dropWhile_append_of_pos before,
    List.dropWhile_cons]
  simp

/-- The routes of a walk from a root route are a whole lineage. -/
theorem routes_of_walk_eq_lineage (root : id ∈ hierarchy.roots router)
    (walk : Walk hierarchy arrival id segments first others) :
    (first :: others).map Selection.route =
      hierarchy.lineage ((first :: others).getLast (List.cons_ne_nil _ _)).route := by
  obtain ⟨above, start, lineage⟩ := forest.lineage_of_walk walk
  rw [forest.lineage_of_top (forest.parent?_of_mem_roots root)] at start
  obtain rfl : above = [] := by simpa using start.symm
  exact lineage.symm

/-- A router owns every route of a walk from one of its root routes. -/
theorem owner?_of_mem_walk (root : id ∈ hierarchy.roots router)
    (walk : Walk hierarchy arrival id segments first others) :
    ∀ selection ∈ first :: others, hierarchy.owner? selection.route = some router := by
  intro selection member
  obtain ⟨routes, chain⟩ := forest.routes_of_walk walk
  have listed := List.mem_map_of_mem (f := Selection.route) member
  rw [routes] at listed
  rw [forest.owner?_of_isChain chain selection.route listed]
  exact forest.owner?_eq_some_iff.mpr ⟨id, root, .refl⟩

end Forest

/-- What a router selects is the lineage of the last route, and the router owns all of it, so that
no link to a selected route is refused for its place. What a route selects is the part of the
lineage of the last route that starts at this route. -/
theorem selected_routes_are_lineage {edits : List Edit} {first : Selection}
    {others : List Selection} :
    (∀ {router context path},
      ((build edits).selectPath router context path).result = .ok (.chain first others) →
        (first :: others).map Selection.route =
            (build edits).lineage ((first :: others).getLast (List.cons_ne_nil _ _)).route ∧
          ∀ selection ∈ first :: others, (build edits).owner? selection.route = some router ∧
            ∀ arguments,
              (build edits).link router selection.route arguments ≠ .error .notInHierarchy) ∧
      ∀ {id arrival segments},
        ((build edits).select id arrival segments).result = .ok (.chain first others) →
          (first :: others).map Selection.route =
            ((build edits).lineage
              ((first :: others).getLast (List.cons_ne_nil _ _)).route).dropWhile (· != id) := by
  have forest := forest_build edits
  constructor
  · intro router context path selected
    obtain ⟨_, _, root, _, _, listed, walk⟩ := forest.walk_of_selectPath selected
    refine ⟨forest.routes_of_walk_eq_lineage listed walk, ?_⟩
    intro selection member
    have owned := forest.owner?_of_mem_walk listed walk selection member
    exact ⟨owned, link_ne_notInHierarchy owned⟩
  · intro id arrival segments selected
    exact forest.routes_of_walk_eq_dropWhile (forest.walk_of_select selected)

def memberPage : Selection :=
  memberRoute.selection ⟨1⟩ plainArrival ["7"] (.dict [("id", .text "7")]) .index

theorem member_routes_are_lineage :
    (((build memberEdits).selectPath ⟨0⟩ .null "/users/7/delete").result =
        .ok (.chain groupSelection [memberSelection]) ∧
      [groupSelection, memberSelection].map Selection.route =
        (build memberEdits).lineage memberSelection.route ∧
      ∀ selection ∈ [groupSelection, memberSelection],
        (build memberEdits).owner? selection.route = some ⟨0⟩ ∧
          ∀ arguments,
            (build memberEdits).link ⟨0⟩ selection.route arguments ≠ .error .notInHierarchy) ∧
    ((build memberEdits).select ⟨1⟩ plainArrival ["users", "7"]).result =
        .ok (.chain memberPage []) ∧
      [memberPage].map Selection.route =
        ((build memberEdits).lineage memberPage.route).dropWhile (· != ⟨1⟩) := by
  have byPath : ((build memberEdits).selectPath ⟨0⟩ .null "/users/7/delete").result =
      .ok (.chain groupSelection [memberSelection]) := by
    rw [build_memberEdits]
    rfl
  have byRoute : ((build memberEdits).select ⟨1⟩ plainArrival ["users", "7"]).result =
      .ok (.chain memberPage []) := by
    rw [build_memberEdits]
    rfl
  exact ⟨⟨byPath, selected_routes_are_lineage.1 byPath⟩, byRoute,
    selected_routes_are_lineage.2 byRoute⟩

end RouteTree.Hierarchy
