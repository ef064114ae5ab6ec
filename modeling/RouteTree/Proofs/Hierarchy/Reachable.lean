import RouteTree.Proofs.Hierarchy.Appending
import RouteTree.Proofs.Hierarchy.Constructed

/-! # Whatever is arranged can be built

Building keeps a hierarchy a forest of constructed routes, and this is all that it demands: every
such forest is the result of some calls. The routes and the routers are constructed first, and then
each list is appended to its target at once. In between, a hierarchy has the places that some of the
lists give, `Hierarchy.restrict`, and one more append gives it those of one more list.
-/

namespace RouteTree.Hierarchy

variable {hierarchy next : Hierarchy} {listed : List Handle} {target : Handle}

/-- Hierarchies that hold the same under every handle are the same. -/
theorem eq_of_lookups (nodes : ∀ id, next.node? id = hierarchy.node? id)
    (routers : ∀ id, next.router? id = hierarchy.router? id) : next = hierarchy := by
  have sameNodes : next.nodes = hierarchy.nodes := Array.ext_getElem? fun index => nodes ⟨index⟩
  have sameRouters : next.routers = hierarchy.routers :=
    Array.ext_getElem? fun index => routers ⟨index⟩
  cases next
  cases hierarchy
  simp_all

/-- The same routes and routers, with the places that the lists of some targets give. -/
def restrict (hierarchy : Hierarchy) (listed : List Handle) : Hierarchy where
  nodes := hierarchy.nodes.mapIdx fun index node =>
    { route := node.route
      placement := if node.placement ∈ listed.map .ofTarget then node.placement else .detached
      children := if .route ⟨index⟩ ∈ listed then node.children else [] }
  routers := hierarchy.routers.mapIdx fun index router =>
    { config := router.config
      roots := if .router ⟨index⟩ ∈ listed then router.roots else [] }

theorem node?_restrict (listed : List Handle) (id : RouteId) :
    (hierarchy.restrict listed).node? id = (hierarchy.node? id).map fun node =>
      { route := node.route
        placement := if node.placement ∈ listed.map .ofTarget then node.placement else .detached
        children := if .route id ∈ listed then node.children else [] } := by
  simp [restrict, node?]

theorem router?_restrict (listed : List Handle) (id : RouterId) :
    (hierarchy.restrict listed).router? id = (hierarchy.router? id).map fun router =>
      { config := router.config
        roots := if .router id ∈ listed then router.roots else [] } := by
  simp [restrict, router?]

@[simp] theorem holds_restrict (listed : List Handle) (handle : Handle) :
    (hierarchy.restrict listed).Holds handle ↔ hierarchy.Holds handle := by
  cases handle <;> simp [restrict, Holds]

theorem placement_restrict (listed : List Handle) (id : RouteId) :
    (hierarchy.restrict listed).placement id =
      if hierarchy.placement id ∈ listed.map .ofTarget then hierarchy.placement id
      else .detached := by
  rw [placement, placement, node?_restrict]
  cases hierarchy.node? id <;> simp

theorem members_restrict (listed : List Handle) (target : Handle) :
    (hierarchy.restrict listed).members target =
      if target ∈ listed then hierarchy.members target else [] := by
  cases target with
  | route id =>
    rw [members, members, children, children, node?_restrict]
    cases hierarchy.node? id <;> simp
  | router id =>
    rw [members, members, roots, roots, router?_restrict]
    cases hierarchy.router? id <;> simp

/-! ## One list after another -/

theorem above_of_above_restrict {parent child : RouteId}
    (above : (hierarchy.restrict listed).Above parent child) : hierarchy.Above parent child := by
  rw [Above, parent?_eq_some_iff, placement_restrict] at above
  rw [Above, parent?_eq_some_iff]
  split at above
  · exact above
  · contradiction

theorem Forest.restrict (forest : hierarchy.Forest) (listed : List Handle) :
    (hierarchy.restrict listed).Forest where
  mem_members_iff target id := by
    rw [members_restrict, placement_restrict]
    have member := forest.mem_members_iff target id
    split_ifs with chosen placed placed
    · exact member
    · simp only [(Placement.ofTarget_ne_detached target).symm, iff_false, member]
      intro same
      exact placed (same ▸ List.mem_map_of_mem chosen)
    · simp only [List.not_mem_nil, false_iff]
      intro same
      rw [same] at placed
      obtain ⟨other, present, equal⟩ := List.mem_map.mp placed
      exact chosen (Placement.ofTarget_inj.mp equal ▸ present)
    · simp [(Placement.ofTarget_ne_detached target).symm]
  members_nodup target := by
    rw [members_restrict]
    split
    · exact forest.members_nodup target
    · exact List.nodup_nil
  above_wellFounded := Subrelation.wf above_of_above_restrict forest.above_wellFounded

/-- Appending a whole list to its target gives the places of this list besides the others. -/
theorem Forest.append_restrict (forest : hierarchy.Forest) (known : hierarchy.Holds target)
    (new : target ∉ listed) :
    (hierarchy.restrict listed).append target (hierarchy.members target) =
      .ok (hierarchy.restrict (listed ++ [target])) := by
  have placed : ∀ id ∈ hierarchy.members target, hierarchy.placement id = .ofTarget target :=
    fun id member => (forest.mem_members_iff target id).mp member
  have unplaced : Placement.ofTarget target ∉ listed.map Placement.ofTarget := by
    simpa using new
  refine append_eq_ok_iff.mpr ⟨fun id member => ?_, forest.members_nodup target,
    fun id member barred => ?_, eq_of_lookups (fun id => ?_) fun id => ?_⟩
  · rw [placement_restrict, placed id member, if_neg unplaced]
  · -- A route of the list that is above the target would be above itself.
    cases target with
    | router router => simp [Hierarchy.barred] at barred
    | route parent =>
      have path := Relation.ReflTransGen.mono (fun _ _ => above_of_above_restrict) _ _
        ((forest.restrict listed).mem_lineage_iff.mp barred)
      exact forest.not_above_self id (.tail' path (parent?_eq_some_iff.mpr (placed id member)))
  · rw [node?_attach, node?_restrict, node?_restrict]
    cases found : hierarchy.node? id with
    | none => rfl
    | some node =>
      have here := forest.mem_members_iff target id
      rw [placement, found, Option.elim_some] at here
      simp only [Option.map_some, Option.some.injEq, Node.mk.injEq, true_and, here]
      constructor
      · by_cases same : node.placement = .ofTarget target
        · simp [same]
        · simp [same]
      · by_cases same : target = .route id
        · subst same
          simp [new, members, children, found]
        · simp [same, Ne.symm same]
  · rw [router?_attach, router?_restrict, router?_restrict]
    cases found : hierarchy.router? id with
    | none => rfl
    | some router =>
      simp only [Option.map_some, Option.some.injEq, Router.mk.injEq, true_and]
      by_cases same : target = .router id
      · subst same
        simp [new, members, roots, found]
      · simp [same, Ne.symm same]

/-- The places of all lists are all places. -/
theorem Forest.restrict_handles (forest : hierarchy.Forest) :
    hierarchy.restrict hierarchy.handles = hierarchy := by
  refine eq_of_lookups (fun id => ?_) fun id => ?_
  · rw [node?_restrict]
    cases found : hierarchy.node? id with
    | none => rfl
    | some node =>
      have known : Handle.route id ∈ hierarchy.handles :=
        mem_handles_iff.mpr (node?_isSome_iff.mp (by rw [found]; rfl))
      have here : hierarchy.placement id = node.placement := by rw [placement, found]; rfl
      have placement : (if node.placement ∈ hierarchy.handles.map .ofTarget then node.placement
          else .detached) = node.placement := by
        by_cases detached : node.placement = .detached
        · rw [detached, ite_self]
        · obtain ⟨target, placed⟩ := Placement.exists_ofTarget detached
          have member := (forest.mem_members_iff target id).mpr (here.trans placed)
          rw [if_pos (placed ▸ List.mem_map_of_mem
            (mem_handles_iff.mpr (holds_of_mem_members member)))]
      rw [Option.map_some, placement, if_pos known]
  · rw [router?_restrict]
    cases found : hierarchy.router? id with
    | none => rfl
    | some router =>
      have known : Handle.router id ∈ hierarchy.handles := by
        rw [mem_handles_iff, Holds]
        exact (Array.getElem?_eq_some_iff.mp found).1
      rw [Option.map_some, if_pos known]

/-- Whatever stands in a list was constructed. -/
theorem Forest.holds_of_listed (forest : hierarchy.Forest) {id : RouteId}
    (member : id ∈ hierarchy.members target) : hierarchy.Holds (.route id) := by
  by_contra absent
  have placed := (forest.mem_members_iff target id).mp member
  rw [placement, node?_eq_none absent] at placed
  exact Placement.ofTarget_ne_detached target placed.symm

/-! ## From nothing -/

/-- Constructed routes can be added one after the other. -/
theorem exists_build_routes {routes : List Route}
    (constructed : ∀ route ∈ routes, ∃ spec, Route.ofSpec spec = .ok route) :
    ∃ edits, build edits = ⟨(routes.map fun route => ⟨route, .detached, []⟩).toArray, #[]⟩ := by
  induction routes using List.reverseRecOn with
  | nil => exact ⟨[], rfl⟩
  | append_singleton routes route ih =>
    obtain ⟨edits, built⟩ := ih fun other member =>
      constructed other (List.mem_append_left _ member)
    obtain ⟨spec, success⟩ := constructed route (by simp)
    refine ⟨edits ++ [.route spec], ?_⟩
    rw [build_append_singleton, built, edit, success]
    simp [addRoute]

/-- And so can routers behind the routes. -/
theorem exists_build_routers {nodes : Array Node} {configs : List Config}
    (constructed : ∀ config ∈ configs, ∃ mount decodesSegments,
      config = .ofMount mount decodesSegments)
    (before : ∃ edits, build edits = ⟨nodes, #[]⟩) :
    ∃ edits, build edits = ⟨nodes, (configs.map fun config => ⟨config, []⟩).toArray⟩ := by
  induction configs using List.reverseRecOn with
  | nil => exact before
  | append_singleton configs config ih =>
    obtain ⟨edits, built⟩ := ih fun other member =>
      constructed other (List.mem_append_left _ member)
    obtain ⟨mount, decodesSegments, rfl⟩ := constructed config (by simp)
    refine ⟨edits ++ [.router mount decodesSegments], ?_⟩
    rw [build_append_singleton, built, edit]
    simp [addRouter]

theorem Constructed.exists_build_restrict_nil (constructed : hierarchy.Constructed) :
    ∃ edits, build edits = hierarchy.restrict [] := by
  have routes : ∀ route ∈ hierarchy.nodes.toList.map Node.route,
      ∃ spec, Route.ofSpec spec = .ok route := by
    intro route member
    obtain ⟨node, listed, rfl⟩ := List.mem_map.mp member
    obtain ⟨index, found⟩ := List.mem_iff_getElem?.mp listed
    rw [Array.getElem?_toList] at found
    exact constructed.routes ⟨index⟩ node.route (congrArg (Option.map Node.route) found)
  have configs : ∀ config ∈ hierarchy.routers.toList.map Router.config,
      ∃ mount decodesSegments, config = .ofMount mount decodesSegments := by
    intro config member
    obtain ⟨router, listed, rfl⟩ := List.mem_map.mp member
    obtain ⟨index, found⟩ := List.mem_iff_getElem?.mp listed
    rw [Array.getElem?_toList] at found
    exact constructed.configs ⟨index⟩ router.config (congrArg (Option.map Router.config) found)
  obtain ⟨edits, built⟩ := exists_build_routers configs (exists_build_routes routes)
  refine ⟨edits, built.trans (eq_of_lookups (fun id => ?_) fun id => ?_)⟩
  · simp [node?, restrict, Function.comp_def]
  · simp [router?, restrict, Function.comp_def]

/-- And then the lists can be appended, each at once. -/
theorem exists_build_restrict (forest : hierarchy.Forest) (constructed : hierarchy.Constructed)
    (distinct : listed.Nodup) (known : ∀ target ∈ listed, hierarchy.Holds target) :
    ∃ edits, build edits = hierarchy.restrict listed := by
  induction listed using List.reverseRecOn with
  | nil => exact constructed.exists_build_restrict_nil
  | append_singleton listed target ih =>
    obtain ⟨before, _, apart⟩ := List.nodup_append.mp distinct
    obtain ⟨edits, built⟩ := ih before fun other member =>
      known other (List.mem_append_left _ member)
    have held : hierarchy.Holds target := known target (by simp)
    have new : target ∉ listed := fun member => apart target member target (by simp) rfl
    refine ⟨edits ++ [.append target (hierarchy.members target)], ?_⟩
    rw [build_append_singleton, built, edit, forest.append_restrict held new, if_pos]
    exact ⟨(holds_restrict listed target).mpr held, fun id member =>
      (holds_restrict listed _).mpr (forest.holds_of_listed member)⟩

/-- What can be built is what is arranged as a forest of constructed routes and routers. -/
theorem exists_build_eq_iff :
    (∃ edits, build edits = hierarchy) ↔ hierarchy.Forest ∧ hierarchy.Constructed := by
  constructor
  · rintro ⟨edits, rfl⟩
    exact ⟨forest_build edits, constructed_build edits⟩
  · rintro ⟨forest, constructed⟩
    obtain ⟨edits, built⟩ := exists_build_restrict forest constructed hierarchy.handles_nodup
      fun _ => mem_handles_iff.mp
    exact ⟨edits, built.trans forest.restrict_handles⟩

end RouteTree.Hierarchy
