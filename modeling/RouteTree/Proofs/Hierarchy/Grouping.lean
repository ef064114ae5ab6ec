import RouteTree.Proofs.Hierarchy.Descent
import RouteTree.Proofs.Hierarchy.Reachable

/-! # Grouping siblings

Routes that follow each other in a list can be put below a new route that takes their place there.
`Grouped` says how the two hierarchies stand to each other, and `Hierarchy.gather` makes the second
one from the first. It is a forest again, so some calls build it: a block of siblings can always be
grouped.
-/

namespace RouteTree

/-- A route that consumes nothing, calls nothing and answers for nothing by itself. -/
def Route.plain : Route :=
  ⟨none, none, none, none, .null, true⟩

namespace Placement

/-- A placement is known by the targets that it can be. -/
theorem eq_of_ofTarget_iff {first second : Placement}
    (same : ∀ target, first = .ofTarget target ↔ second = .ofTarget target) : first = second := by
  by_cases detached : first = .detached
  · by_contra different
    obtain ⟨target, placed⟩ := exists_ofTarget (detached ▸ Ne.symm different)
    exact ofTarget_ne_detached target (((same target).mpr placed).symm.trans detached)
  · obtain ⟨target, placed⟩ := exists_ofTarget detached
    exact placed.trans ((same target).mp placed).symm

end Placement

namespace Hierarchy

variable {hierarchy before after : Hierarchy} {target other : Handle} {group id : RouteId}
  {left block right : List RouteId}

/-- A hierarchy after a block of a target's list was put below a new route in its place. -/
structure Grouped (before after : Hierarchy) (target : Handle) (group : RouteId)
    (left block right : List RouteId) : Prop where
  fresh : before.route? group = none
  route?_group : after.route? group = some .plain
  route?_eq : ∀ id, id ≠ group → after.route? id = before.route? id
  config?_eq : ∀ router, after.config? router = before.config? router
  members_before : before.members target = left ++ block ++ right
  members_target : after.members target = left ++ group :: right
  members_group : after.members (.route group) = block
  members_other : ∀ other, other ≠ target → other ≠ .route group →
    after.members other = before.members other

/-! ## Every block can be grouped -/

/-- Put a block of a target's list below a new route in its place. -/
def gather (hierarchy : Hierarchy) (target : Handle) (left block right : List RouteId) :
    Hierarchy where
  nodes := (hierarchy.nodes.mapIdx fun index node =>
    { route := node.route
      placement := if ⟨index⟩ ∈ block then .below hierarchy.nextRoute else node.placement
      children :=
        if target = .route ⟨index⟩ then left ++ hierarchy.nextRoute :: right
        else node.children }).push ⟨.plain, .ofTarget target, block⟩
  routers := hierarchy.routers.mapIdx fun index router =>
    { config := router.config
      roots :=
        if target = .router ⟨index⟩ then left ++ hierarchy.nextRoute :: right
        else router.roots }

theorem node?_gather (id : RouteId) :
    (hierarchy.gather target left block right).node? id =
      if id = hierarchy.nextRoute then some ⟨.plain, .ofTarget target, block⟩
      else (hierarchy.node? id).map fun node =>
        { route := node.route
          placement := if id ∈ block then .below hierarchy.nextRoute else node.placement
          children :=
            if target = .route id then left ++ hierarchy.nextRoute :: right
            else node.children } := by
  obtain ⟨index⟩ := id
  simp [gather, node?, nextRoute, Array.getElem?_push]

theorem router?_gather (id : RouterId) :
    (hierarchy.gather target left block right).router? id = (hierarchy.router? id).map fun router =>
      { config := router.config
        roots :=
          if target = .router id then left ++ hierarchy.nextRoute :: right else router.roots } := by
  simp [gather, router?]

/-- In a list without repetitions, a block holds nothing of what stands beside it. -/
theorem notMem_beside (distinct : (left ++ block ++ right).Nodup) (member : id ∈ block) :
    id ∉ left ++ right := by
  rw [List.append_assoc, List.nodup_append'] at distinct
  obtain ⟨_, inner, before⟩ := distinct
  intro beside
  rcases List.mem_append.mp beside with inLeft | inRight
  · exact before inLeft (List.mem_append_left right member)
  · exact (List.nodup_append'.mp inner).2.2 member inRight

/-- The next handle stands for nothing yet. -/
theorem not_holds_nextRoute : ¬ hierarchy.Holds (.route hierarchy.nextRoute) :=
  Nat.lt_irrefl _

section

variable (forest : hierarchy.Forest) (listed : hierarchy.members target = left ++ block ++ right)
include forest listed

theorem ne_nextRoute_of_listed (member : id ∈ left ++ block ++ right) :
    id ≠ hierarchy.nextRoute := by
  rintro rfl
  exact not_holds_nextRoute (forest.holds_of_listed (listed ▸ member))

theorem placement_gather (id : RouteId) :
    (hierarchy.gather target left block right).placement id =
      if id = hierarchy.nextRoute then .ofTarget target
      else if id ∈ block then .below hierarchy.nextRoute else hierarchy.placement id := by
  rw [placement, node?_gather]
  by_cases new : id = hierarchy.nextRoute
  · rw [if_pos new, if_pos new]
    rfl
  · rw [if_neg new, if_neg new]
    by_cases member : id ∈ block
    · have inside : id ∈ hierarchy.members target := by simp [listed, member]
      obtain ⟨node, found⟩ := exists_node (forest.holds_of_listed inside)
      simp [found, member]
    · rw [placement, if_neg member]
      cases hierarchy.node? id <;> simp [member]

variable (present : block ≠ [])
include present

omit forest in
/-- A target with a block in its list was constructed. -/
theorem holds_of_block : hierarchy.Holds target := by
  obtain ⟨id, member⟩ := List.exists_mem_of_ne_nil block present
  have inside : id ∈ hierarchy.members target := by simp [listed, member]
  exact holds_of_mem_members inside

omit forest in
theorem members_gather (other : Handle) :
    (hierarchy.gather target left block right).members other =
      if other = target then left ++ hierarchy.nextRoute :: right
      else if other = .route hierarchy.nextRoute then block else hierarchy.members other := by
  have known := holds_of_block listed present
  cases other with
  | route id =>
    rw [members, children, node?_gather]
    by_cases new : id = hierarchy.nextRoute
    · have apart : Handle.route id ≠ target := by
        rintro rfl
        exact not_holds_nextRoute (new ▸ known)
      rw [if_pos new, if_neg apart, new, if_pos rfl]
      rfl
    · rw [if_neg new]
      by_cases same : target = .route id
      · obtain ⟨node, found⟩ := exists_node (same ▸ known)
        simp [found, same]
      · rw [if_neg (Ne.symm same), if_neg fun equal => new (Handle.route.inj equal), members,
          children]
        cases hierarchy.node? id <;> simp [same]
  | router id =>
    rw [members, roots, router?_gather]
    by_cases same : target = .router id
    · subst same
      have found : hierarchy.router? id = some hierarchy.routers[id.index] :=
        Array.getElem?_eq_getElem known
      simp [found]
    · rw [if_neg (Ne.symm same), if_neg (by simp), members, roots]
      cases hierarchy.router? id <;> simp [same]

/-- Above the group stands what stood above the block. -/
theorem above_gather_wellFounded :
    WellFounded (hierarchy.gather target left block right).Above := by
  have parent_of_new : ∀ {parent}, (hierarchy.gather target left block right).Above parent
      hierarchy.nextRoute → target = .route parent := by
    intro parent above
    rw [Above, parent?_eq_some_iff, placement_gather forest listed, if_pos rfl] at above
    exact Placement.ofTarget_inj.mp (above.trans rfl : _ = Placement.ofTarget (.route parent))
  have old : ∀ id, id ≠ hierarchy.nextRoute →
      Acc (hierarchy.gather target left block right).Above id := by
    intro id
    induction id using forest.above_wellFounded.induction with
    | _ id ih =>
      intro known
      refine ⟨id, fun parent above => ?_⟩
      rw [Above, parent?_eq_some_iff, placement_gather forest listed, if_neg known] at above
      split at above
      · next member =>
        obtain rfl := Placement.below.inj above
        refine ⟨_, fun higher above => ?_⟩
        have reached := parent_of_new above
        have inside : id ∈ hierarchy.members target := by simp [listed, member]
        have placed : hierarchy.Above higher id := parent?_eq_some_iff.mpr
          ((forest.mem_members_iff (.route higher) id).mp (reached ▸ inside))
        refine ih higher placed ?_
        rintro rfl
        exact not_holds_nextRoute (forest.holds_parent placed)
      · have placed : hierarchy.Above parent id := parent?_eq_some_iff.mpr above
        refine ih parent placed ?_
        rintro rfl
        exact not_holds_nextRoute (forest.holds_parent placed)
  refine ⟨fun id => ?_⟩
  by_cases new : id = hierarchy.nextRoute
  · subst new
    refine ⟨_, fun parent above => old parent ?_⟩
    rintro rfl
    exact not_holds_nextRoute (parent_of_new above ▸ holds_of_block listed present)
  · exact old id new

/-- The two records of places agree about the new route, about the block, and about the others. -/
theorem mem_members_gather_iff (other : Handle) (id : RouteId) :
    id ∈ (hierarchy.gather target left block right).members other ↔
      (hierarchy.gather target left block right).placement id = .ofTarget other := by
  have apart : target ≠ .route hierarchy.nextRoute := by
    rintro rfl
    exact not_holds_nextRoute (holds_of_block listed present)
  rw [members_gather listed present, placement_gather forest listed]
  by_cases new : id = hierarchy.nextRoute
  · subst new
    have outside : hierarchy.nextRoute ∉ block := fun member =>
      ne_nextRoute_of_listed forest listed (by simp [member]) rfl
    have unlisted : hierarchy.nextRoute ∉ hierarchy.members other := fun member =>
      not_holds_nextRoute (forest.holds_of_listed member)
    rw [if_pos rfl, Placement.ofTarget_inj]
    split_ifs with same fresh
    · simp [same]
    · simp [fresh, outside, apart]
    · simp [unlisted, Ne.symm same]
  rw [if_neg new]
  have there := forest.mem_members_iff other id
  by_cases member : id ∈ block
  · have here := (forest.mem_members_iff target id).mp (by simp [listed, member])
    have beside := notMem_beside (listed ▸ forest.members_nodup target) member
    have below : Placement.below hierarchy.nextRoute = .ofTarget other ↔
        Handle.route hierarchy.nextRoute = other :=
      @Placement.ofTarget_inj (.route hierarchy.nextRoute) other
    rw [if_pos member, below]
    split_ifs with same fresh
    · subst same
      rw [List.mem_append, not_or] at beside
      simp [beside, new, Ne.symm apart]
    · simp [fresh, member]
    · rw [there, here, Placement.ofTarget_inj]
      exact ⟨fun equal => (same equal.symm).elim, fun equal => (fresh equal.symm).elim⟩
  · rw [if_neg member, ← there]
    split_ifs with same fresh
    · subst same
      simp [listed, new, member]
    · subst fresh
      have none : hierarchy.members (.route hierarchy.nextRoute) = [] := by
        simp [members, children, node?_nextRoute]
      simp [none, member]
    · rfl

theorem members_gather_nodup (other : Handle) :
    ((hierarchy.gather target left block right).members other).Nodup := by
  have distinct := forest.members_nodup target
  rw [listed] at distinct
  rw [members_gather listed present]
  split_ifs with same fresh
  · have outer : (left ++ right).Nodup :=
      distinct.sublist ((List.sublist_append_left left block).append_right right)
    have apart : hierarchy.nextRoute ∉ left ++ right := fun member =>
      ne_nextRoute_of_listed forest listed (List.mem_append.mpr
        ((List.mem_append.mp member).imp_left (List.mem_append_left block))) rfl
    exact List.nodup_middle.mpr (List.nodup_cons.mpr ⟨apart, outer⟩)
  · exact (List.nodup_append.mp (List.nodup_append.mp distinct).1).2.1
  · exact forest.members_nodup other

theorem forest_gather : (hierarchy.gather target left block right).Forest where
  mem_members_iff := mem_members_gather_iff forest listed present
  members_nodup := members_gather_nodup forest listed present
  above_wellFounded := above_gather_wellFounded forest listed present

omit forest in
/-- What was made by gathering a block has this block grouped. -/
theorem grouped_gather :
    Grouped hierarchy (hierarchy.gather target left block right) target hierarchy.nextRoute left
      block right where
  fresh := by rw [route?, node?_nextRoute]; rfl
  route?_group := by rw [route?, node?_gather, if_pos rfl]; rfl
  route?_eq id old := by
    rw [route?, route?, node?_gather, if_neg old, Option.map_map]
    rfl
  config?_eq router := by
    rw [config?, config?, router?_gather, Option.map_map]
    rfl
  members_before := listed
  members_target := by rw [members_gather listed present, if_pos rfl]
  members_group := by
    rw [members_gather listed present, if_neg, if_pos rfl]
    rintro rfl
    exact not_holds_nextRoute (holds_of_block listed present)
  members_other other apart fresh := by
    rw [members_gather listed present, if_neg apart, if_neg fresh]

end

/-- The new route is constructed without arguments, and nothing else is new. -/
theorem Grouped.constructed (grouped : Grouped before after target group left block right)
    (constructed : before.Constructed) : after.Constructed where
  routes id route found := by
    by_cases new : id = group
    · subst new
      obtain rfl := Option.some.inj (grouped.route?_group.symm.trans found)
      exact ⟨⟨none, none, none, none, .null, true⟩, rfl⟩
    · exact constructed.routes id route ((grouped.route?_eq id new).symm.trans found)
  configs router config found :=
    constructed.configs router config ((grouped.config?_eq router).symm.trans found)

/-- A block of a list can be grouped: some calls build a hierarchy in which it is. -/
theorem exists_grouped {edits : List Edit}
    (listed : (build edits).members target = left ++ block ++ right) (present : block ≠ []) :
    ∃ edits' group, Grouped (build edits) (build edits') target group left block right := by
  have forest := forest_build edits
  have grouped := grouped_gather listed present
  obtain ⟨edits', built⟩ := exists_build_eq_iff.mpr
    ⟨forest_gather forest listed present, grouped.constructed (constructed_build edits)⟩
  exact ⟨edits', _, built ▸ grouped⟩

/-! ## Places before and after -/

namespace Grouped

variable (grouped : Grouped before after target group left block right) (forest : before.Forest)
include grouped

/-- The new route has no place in the hierarchy before. -/
theorem not_holds_group : ¬ before.Holds (.route group) := by
  intro held
  obtain ⟨node, found⟩ := exists_node held
  have absent := grouped.fresh
  rw [route?_of_node? found] at absent
  contradiction

include forest

theorem ne_group_of_listed (member : id ∈ before.members other) : id ≠ group := by
  rintro rfl
  exact grouped.not_holds_group (forest.holds_of_listed member)

theorem ne_group_of_parent {parent : RouteId} (placed : before.parent? id = some parent) :
    parent ≠ group := by
  rintro rfl
  exact grouped.not_holds_group (forest.holds_parent placed)

theorem placement_of_mem_block (member : id ∈ block) : before.placement id = .ofTarget target :=
  (forest.mem_members_iff target id).mp (by simp [grouped.members_before, member])

variable (forest' : after.Forest)
include forest'

omit forest in
/-- The new route stands where the block stood. -/
theorem placement_group : after.placement group = .ofTarget target :=
  (forest'.mem_members_iff target group).mp (by simp [grouped.members_target])

omit forest in
/-- The block stands below the new route. -/
theorem parent?_of_mem_block (member : id ∈ block) : after.parent? id = some group :=
  parent?_eq_some_iff.mpr ((forest'.mem_members_iff (.route group) id).mp
    (grouped.members_group ▸ member))

/-- All other routes stand where they stood. -/
theorem placement_eq (old : id ≠ group) (outside : id ∉ block) :
    after.placement id = before.placement id := by
  refine Placement.eq_of_ofTarget_iff fun other => ?_
  rw [← forest.mem_members_iff, ← forest'.mem_members_iff]
  by_cases same : other = target
  · rw [same, grouped.members_before, grouped.members_target]
    simp [old, outside]
  · by_cases new : other = .route group
    · rw [new, grouped.members_group]
      have none : id ∉ before.members (.route group) := fun member =>
        grouped.not_holds_group (holds_of_mem_members member)
      simp [outside, none]
    · rw [grouped.members_other other same new]

/-- The lineage of an old route is the old one, apart from the new route, and so is the owner. -/
theorem lineage_and_owner (old : id ≠ group) :
    (after.lineage id).filter (· ≠ group) = before.lineage id ∧
      after.owner? id = before.owner? id := by
  induction id using forest.above_wellFounded.induction with
  | _ id ih =>
    by_cases member : id ∈ block
    · have below := grouped.parent?_of_mem_block forest' member
      have group_placed := grouped.placement_group forest'
      have placed := grouped.placement_of_mem_block forest member
      cases target with
      | route parent =>
        have above : before.parent? id = some parent := parent?_eq_some_iff.mpr placed
        have group_above : after.parent? group = some parent := parent?_eq_some_iff.mpr group_placed
        obtain ⟨lineage, owner⟩ := ih parent above (grouped.ne_group_of_parent forest above)
        rw [forest'.lineage_of_parent below, forest'.lineage_of_parent group_above,
          forest.lineage_of_parent above, forest'.owner?_of_parent below,
          forest'.owner?_of_parent group_above, forest.owner?_of_parent above, ← lineage]
        exact ⟨by simp [old], owner⟩
      | router router =>
        have top : before.parent? id = none := by rw [parent?, placed]; rfl
        have group_top : after.parent? group = none := by rw [parent?, group_placed]; rfl
        rw [forest'.lineage_of_parent below, forest'.lineage_of_top group_top,
          forest.lineage_of_top top, forest'.owner?_of_parent below,
          forest'.owner?_of_top group_top, forest.owner?_of_top top, placed, group_placed]
        exact ⟨by simp [old], rfl⟩
    · have same := grouped.placement_eq forest forest' old member
      have parents : after.parent? id = before.parent? id := by rw [parent?, parent?, same]
      cases above : before.parent? id with
      | none =>
        have top := parents.trans above
        rw [forest'.lineage_of_top top, forest.lineage_of_top above, forest'.owner?_of_top top,
          forest.owner?_of_top above, same]
        exact ⟨by simp [old], rfl⟩
      | some parent =>
        obtain ⟨lineage, owner⟩ := ih parent above (grouped.ne_group_of_parent forest above)
        have below := parents.trans above
        rw [forest'.lineage_of_parent below, forest.lineage_of_parent above,
          forest'.owner?_of_parent below, forest.owner?_of_parent above, ← lineage]
        exact ⟨by simp [old], owner⟩

end Grouped

end Hierarchy

end RouteTree
