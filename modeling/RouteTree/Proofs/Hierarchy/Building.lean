import RouteTree.Hierarchy.Append
import Mathlib.Tactic.ByContra
import Mathlib.Tactic.SplitIfs

/-! # Building a hierarchy

A hierarchy grows by three calls: a route is constructed, a router is constructed, or routes are
appended. A refused call leaves the hierarchy as it was. What a call does is said here through the
three things that later modules read: where a route is placed, what is appended to a target, and
which route a handle stands for.
-/

namespace RouteTree

namespace Placement

@[simp] theorem ofTarget_inj {target other : Handle} :
    ofTarget target = ofTarget other ↔ target = other := by
  cases target <;> cases other <;> simp [ofTarget]

@[simp] theorem isDetached_iff {placement : Placement} :
    placement.isDetached = true ↔ placement = .detached := by
  cases placement <;> simp [isDetached]

@[simp] theorem ofTarget_ne_detached (target : Handle) : ofTarget target ≠ .detached := by
  cases target <;> simp [ofTarget]

theorem parent?_eq_some_iff {placement : Placement} {parent : RouteId} :
    placement.parent? = some parent ↔ placement = .below parent := by
  cases placement <;> simp [parent?]

theorem router?_eq_some_iff {placement : Placement} {router : RouterId} :
    placement.router? = some router ↔ placement = .root router := by
  cases placement <;> simp [router?]

/-- A placed route has a target. -/
theorem exists_ofTarget {placement : Placement} (placed : placement ≠ .detached) :
    ∃ target, placement = ofTarget target := by
  cases placement with
  | detached => exact (placed rfl).elim
  | below parent => exact ⟨.route parent, rfl⟩
  | root router => exact ⟨.router router, rfl⟩

end Placement

namespace Hierarchy

variable {hierarchy next : Hierarchy}

/-- A handle of a route or a router that was constructed. -/
def Holds (hierarchy : Hierarchy) : Handle → Prop
  | .route id => id.index < hierarchy.nodes.size
  | .router id => id.index < hierarchy.routers.size

instance (hierarchy : Hierarchy) : DecidablePred hierarchy.Holds := fun handle =>
  match handle with
  | .route id => inferInstanceAs (Decidable (id.index < hierarchy.nodes.size))
  | .router id => inferInstanceAs (Decidable (id.index < hierarchy.routers.size))

/-- The route that a handle stands for. -/
def route? (hierarchy : Hierarchy) (id : RouteId) : Option Route :=
  (hierarchy.node? id).map Node.route

/-- The configuration of a router. -/
def config? (hierarchy : Hierarchy) (id : RouterId) : Option Config :=
  (hierarchy.router? id).map Router.config

theorem route?_of_node? {id : RouteId} {node : Node} (found : hierarchy.node? id = some node) :
    hierarchy.route? id = some node.route := by
  rw [route?, found]
  rfl

theorem node?_isSome_iff {id : RouteId} :
    (hierarchy.node? id).isSome ↔ hierarchy.Holds (.route id) := by
  simp [node?, Holds]

theorem route?_isSome_iff {id : RouteId} :
    (hierarchy.route? id).isSome ↔ hierarchy.Holds (.route id) := by
  rw [route?, Option.isSome_map, node?_isSome_iff]

theorem config?_isSome_iff {id : RouterId} :
    (hierarchy.config? id).isSome ↔ hierarchy.Holds (.router id) := by
  simp [config?, router?, Holds]

/-- A route that was constructed is found under its handle. -/
theorem exists_node {id : RouteId} (held : hierarchy.Holds (.route id)) :
    ∃ node, hierarchy.node? id = some node :=
  Option.isSome_iff_exists.mp (node?_isSome_iff.mpr held)

theorem node?_eq_none {id : RouteId} (absent : ¬ hierarchy.Holds (.route id)) :
    hierarchy.node? id = none := by
  simpa [node?, Holds] using absent

/-! ## Constructing -/

theorem node?_addRoute (route : Route) (id : RouteId) :
    (hierarchy.addRoute route).node? id =
      if id = hierarchy.nextRoute then some ⟨route, .detached, []⟩ else hierarchy.node? id := by
  obtain ⟨index⟩ := id
  simp [addRoute, node?, nextRoute, Array.getElem?_push]

theorem router?_addRouter (config : Config) (id : RouterId) :
    (hierarchy.addRouter config).router? id =
      if id = hierarchy.nextRouter then some ⟨config, []⟩ else hierarchy.router? id := by
  obtain ⟨index⟩ := id
  simp [addRouter, router?, nextRouter, Array.getElem?_push]

theorem node?_nextRoute : hierarchy.node? hierarchy.nextRoute = none := by
  simp [node?, nextRoute]

theorem router?_nextRouter : hierarchy.router? hierarchy.nextRouter = none := by
  simp [router?, nextRouter]

/-- A new route is placed nowhere, and so is a handle that stands for none. -/
@[simp] theorem placement_addRoute (route : Route) (id : RouteId) :
    (hierarchy.addRoute route).placement id = hierarchy.placement id := by
  by_cases new : id = hierarchy.nextRoute
  · simp [placement, node?_addRoute, new, node?_nextRoute]
  · simp [placement, node?_addRoute, new]

@[simp] theorem members_addRoute (route : Route) (target : Handle) :
    (hierarchy.addRoute route).members target = hierarchy.members target := by
  cases target with
  | route id =>
    by_cases new : id = hierarchy.nextRoute
    · simp [members, children, node?_addRoute, new, node?_nextRoute]
    · simp [members, children, node?_addRoute, new]
  | router id => rfl

@[simp] theorem placement_addRouter (config : Config) (id : RouteId) :
    (hierarchy.addRouter config).placement id = hierarchy.placement id :=
  rfl

@[simp] theorem members_addRouter (config : Config) (target : Handle) :
    (hierarchy.addRouter config).members target = hierarchy.members target := by
  cases target with
  | route id => rfl
  | router id =>
    by_cases new : id = hierarchy.nextRouter
    · simp [members, roots, router?_addRouter, new, router?_nextRouter]
    · simp [members, roots, router?_addRouter, new]

theorem route?_addRoute (route : Route) (id : RouteId) :
    (hierarchy.addRoute route).route? id =
      if id = hierarchy.nextRoute then some route else hierarchy.route? id := by
  simp only [route?, node?_addRoute]
  split <;> rfl

theorem config?_addRouter (config : Config) (id : RouterId) :
    (hierarchy.addRouter config).config? id =
      if id = hierarchy.nextRouter then some config else hierarchy.config? id := by
  simp only [config?, router?_addRouter]
  split <;> rfl

theorem holds_nextRoute (hierarchy : Hierarchy) (route : Route) :
    (hierarchy.addRoute route).Holds (.route hierarchy.nextRoute) := by
  simp [Holds, addRoute, nextRoute]

theorem holds_nextRouter (hierarchy : Hierarchy) (config : Config) :
    (hierarchy.addRouter config).Holds (.router hierarchy.nextRouter) := by
  simp [Holds, addRouter, nextRouter]

/-! ## Attaching -/

theorem node?_place (placement : Placement) (placed id : RouteId) :
    (hierarchy.place placement placed).node? id =
      if id = placed then (hierarchy.node? id).map fun node => { node with placement }
      else hierarchy.node? id := by
  obtain ⟨index⟩ := id
  obtain ⟨position⟩ := placed
  simp [place, node?, Array.getElem?_modify, eq_comm]

theorem node?_foldl_place (hierarchy : Hierarchy) (placement : Placement) (batch : List RouteId)
    (id : RouteId) :
    (batch.foldl (fun current id => current.place placement id) hierarchy).node? id =
      if id ∈ batch then (hierarchy.node? id).map fun node => { node with placement }
      else hierarchy.node? id := by
  induction batch generalizing hierarchy with
  | nil => simp
  | cons head rest ih =>
    simp only [List.foldl_cons, ih, node?_place, List.mem_cons]
    by_cases first : id = head <;> by_cases later : id ∈ rest <;>
      simp [first, later, Function.comp_def]

/-- Placing routes adds no route and touches no router. -/
theorem size_foldl_place (hierarchy : Hierarchy) (placement : Placement)
    (batch : List RouteId) :
    (batch.foldl (fun current id => current.place placement id) hierarchy).nodes.size =
        hierarchy.nodes.size ∧
      (batch.foldl (fun current id => current.place placement id) hierarchy).routers =
        hierarchy.routers := by
  induction batch generalizing hierarchy with
  | nil => exact ⟨rfl, rfl⟩
  | cons head rest ih =>
    obtain ⟨size, routers⟩ := ih (hierarchy.place placement head)
    rw [List.foldl_cons]
    exact ⟨size.trans Array.size_modify, routers⟩

/-- A node keeps its route; its placement and its children say what was attached. -/
theorem node?_attach (target : Handle) (batch : List RouteId) (id : RouteId) :
    (hierarchy.attach target batch).node? id = (hierarchy.node? id).map fun node =>
      { route := node.route
        placement := if id ∈ batch then .ofTarget target else node.placement
        children := if target = .route id then node.children ++ batch else node.children } := by
  have placed := node?_foldl_place hierarchy (.ofTarget target) batch id
  cases target with
  | route parent =>
    obtain ⟨index⟩ := id
    obtain ⟨position⟩ := parent
    simp only [node?] at placed
    simp only [attach, extend, node?, Array.getElem?_modify, placed]
    cases hierarchy.nodes[index]? <;>
      by_cases same : position = index <;> by_cases member : (⟨index⟩ : RouteId) ∈ batch <;>
      simp [same, member]
  | router router =>
    simp only [node?] at placed
    simp only [attach, extend, node?, placed]
    cases hierarchy.nodes[id.index]? <;> by_cases member : id ∈ batch <;> simp [member]

theorem router?_attach (target : Handle) (batch : List RouteId) (id : RouterId) :
    (hierarchy.attach target batch).router? id = (hierarchy.router? id).map fun router =>
      { config := router.config
        roots := if target = .router id then router.roots ++ batch else router.roots } := by
  have kept := (size_foldl_place hierarchy (.ofTarget target) batch).2
  cases target with
  | route parent => simp [attach, extend, router?, kept]
  | router router =>
    obtain ⟨index⟩ := id
    obtain ⟨position⟩ := router
    simp only [attach, extend, router?, Array.getElem?_modify, kept]
    cases hierarchy.routers[index]? <;> by_cases same : position = index <;> simp [same]

@[simp] theorem holds_attach (target : Handle) (batch : List RouteId) (handle : Handle) :
    (hierarchy.attach target batch).Holds handle ↔ hierarchy.Holds handle := by
  cases target <;> cases handle <;>
    simp [attach, extend, Holds, size_foldl_place]

@[simp] theorem route?_attach (target : Handle) (batch : List RouteId) (id : RouteId) :
    (hierarchy.attach target batch).route? id = hierarchy.route? id := by
  simp [route?, node?_attach, Function.comp_def]

@[simp] theorem config?_attach (target : Handle) (batch : List RouteId) (id : RouterId) :
    (hierarchy.attach target batch).config? id = hierarchy.config? id := by
  simp [config?, router?_attach, Function.comp_def]

/-- Attaching places the batch and nothing else. -/
theorem placement_attach (target : Handle) {batch : List RouteId}
    (held : ∀ id ∈ batch, hierarchy.Holds (.route id)) (id : RouteId) :
    (hierarchy.attach target batch).placement id =
      if id ∈ batch then .ofTarget target else hierarchy.placement id := by
  simp only [placement, node?_attach]
  by_cases member : id ∈ batch
  · obtain ⟨node, found⟩ := exists_node (held id member)
    simp [found, member]
  · cases found : hierarchy.node? id <;> simp [member]

/-- Attaching extends the list of the target and no other. -/
theorem members_attach {target : Handle} (held : hierarchy.Holds target) (batch : List RouteId)
    (other : Handle) :
    (hierarchy.attach target batch).members other =
      if target = other then hierarchy.members other ++ batch else hierarchy.members other := by
  cases other with
  | route id =>
    simp only [members, children, node?_attach]
    by_cases same : target = .route id
    · subst same
      obtain ⟨node, found⟩ := exists_node held
      simp [found]
    · cases found : hierarchy.node? id <;> simp [same]
  | router id =>
    simp only [members, roots, router?_attach]
    by_cases same : target = .router id
    · subst same
      have found : hierarchy.router? id = some hierarchy.routers[id.index] :=
        Array.getElem?_eq_getElem held
      simp [found]
    · cases found : hierarchy.router? id <;> simp [same]

/-! ## Appending -/

theorem isAppended_eq_false_iff {id : RouteId} :
    hierarchy.isAppended id = false ↔ hierarchy.placement id = .detached := by
  rw [← Placement.isDetached_iff]
  simp only [isAppended, Bool.not_eq_false']

theorem isAppended_iff {id : RouteId} :
    hierarchy.isAppended id = true ↔ hierarchy.placement id ≠ .detached := by
  rw [← Bool.not_eq_false, ne_eq, isAppended_eq_false_iff]

/-- A batch is accepted exactly when all of it is new, nothing stands in it twice and the target is
not below any of it; accepting it is attaching it. -/
theorem append_eq_ok_iff {target : Handle} {batch : List RouteId} :
    hierarchy.append target batch = .ok next ↔
      (∀ id ∈ batch, hierarchy.placement id = .detached) ∧ batch.Nodup ∧
        (∀ id ∈ batch, id ∉ hierarchy.barred target) ∧ next = hierarchy.attach target batch := by
  simp only [append]
  split_ifs with appended barred
  · simp only [Bool.or_eq_true, List.any_eq_true, Bool.not_eq_true', decide_eq_false_iff_not]
      at appended
    simp only [false_iff, not_and]
    intro detached distinct
    rcases appended with ⟨id, member, placed⟩ | repeated
    · exact (isAppended_iff.mp placed (detached id member)).elim
    · exact (repeated distinct).elim
  · simp only [List.any_eq_true, List.contains_iff_mem] at barred
    obtain ⟨id, member, above⟩ := barred
    simp only [false_iff, not_and]
    intro _ _ clear
    exact (clear id member above).elim
  · simp only [Bool.or_eq_true, List.any_eq_true, Bool.not_eq_true', decide_eq_false_iff_not,
      not_or, not_exists, not_and, Bool.not_eq_true, not_not] at appended
    simp only [List.any_eq_true, List.contains_iff_mem, not_exists, not_and] at barred
    simp only [Except.ok.injEq]
    constructor
    · rintro rfl
      exact ⟨fun id member => isAppended_eq_false_iff.mp (appended.1 id member), appended.2,
        barred, rfl⟩
    · rintro ⟨_, _, _, rfl⟩
      rfl

/-! ## Sequences of calls -/

/-- One call by which a hierarchy grows. -/
inductive Edit where
  | route (spec : RouteSpec)
  | router (mount : String) (decodesSegments : Bool)
  | append (target : Handle) (batch : List RouteId)

/-- The hierarchy after a call. A refused call changes nothing, and there is no call that names a
route or a router before it was constructed. -/
def edit (hierarchy : Hierarchy) : Edit → Hierarchy
  | .route spec =>
    match Route.ofSpec spec with
    | .ok route => hierarchy.addRoute route
    | .error _ => hierarchy
  | .router mount decodesSegments => hierarchy.addRouter (.ofMount mount decodesSegments)
  | .append target batch =>
    if hierarchy.Holds target ∧ ∀ id ∈ batch, hierarchy.Holds (.route id) then
      match hierarchy.append target batch with
      | .ok next => next
      | .error _ => hierarchy
    else hierarchy

/-- The hierarchy after a sequence of calls. -/
def editAll (hierarchy : Hierarchy) (edits : List Edit) : Hierarchy :=
  edits.foldl edit hierarchy

/-- The hierarchy that a sequence of calls builds from nothing. -/
def build (edits : List Edit) : Hierarchy :=
  empty.editAll edits

theorem editAll_append (edits later : List Edit) :
    hierarchy.editAll (edits ++ later) = (hierarchy.editAll edits).editAll later :=
  List.foldl_append

theorem build_append (edits later : List Edit) :
    build (edits ++ later) = (build edits).editAll later :=
  editAll_append edits later

theorem build_append_singleton (edits : List Edit) (last : Edit) :
    build (edits ++ [last]) = (build edits).edit last :=
  build_append edits [last]

/-- What a property needs in order to survive every call. Each field has what the call checked. -/
structure Preserved (property : Hierarchy → Prop) : Prop where
  addRoute : ∀ {hierarchy spec route}, property hierarchy → Route.ofSpec spec = .ok route →
    property (hierarchy.addRoute route)
  addRouter : ∀ {hierarchy} mount decodesSegments, property hierarchy →
    property (hierarchy.addRouter (.ofMount mount decodesSegments))
  attach : ∀ {hierarchy target batch}, property hierarchy → hierarchy.Holds target →
    (∀ id ∈ batch, hierarchy.Holds (.route id)) →
    (∀ id ∈ batch, hierarchy.placement id = .detached) → batch.Nodup →
    (∀ id ∈ batch, id ∉ hierarchy.barred target) → property (hierarchy.attach target batch)

namespace Preserved

variable {property : Hierarchy → Prop}

theorem edit (preserved : Preserved property) (holds : property hierarchy) (edit : Edit) :
    property (hierarchy.edit edit) := by
  cases edit with
  | route spec =>
    simp only [Hierarchy.edit]
    split
    · next route constructed => exact preserved.addRoute holds constructed
    · exact holds
  | router mount decodesSegments => exact preserved.addRouter mount decodesSegments holds
  | append target batch =>
    simp only [Hierarchy.edit]
    split_ifs with held
    · split
      · next next success =>
        obtain ⟨detached, distinct, clear, rfl⟩ := append_eq_ok_iff.mp success
        exact preserved.attach holds held.1 held.2 detached distinct clear
      · exact holds
    · exact holds

theorem editAll (preserved : Preserved property) (holds : property hierarchy)
    (edits : List Edit) : property (hierarchy.editAll edits) := by
  induction edits generalizing hierarchy with
  | nil => exact holds
  | cons first rest ih => exact ih (preserved.edit holds first)

/-- A property of the empty hierarchy that survives every call holds of whatever is built. -/
theorem build (preserved : Preserved property) (initial : property empty) (edits : List Edit) :
    property (build edits) :=
  preserved.editAll initial edits

end Preserved

/-- What was constructed stays so. -/
theorem holds_preserved (handle : Handle) : Preserved fun hierarchy => hierarchy.Holds handle where
  addRoute held _ := by
    cases handle with
    | route id => simpa [Holds, addRoute] using Nat.lt_succ_of_lt held
    | router id => exact held
  addRouter _ _ held := by
    cases handle with
    | route id => exact held
    | router id => simpa [Holds, addRouter] using Nat.lt_succ_of_lt held
  attach held _ _ _ _ _ := (holds_attach _ _ handle).mpr held

end Hierarchy

end RouteTree
