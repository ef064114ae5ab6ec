import RouteTree.Proofs.Hierarchy.Lineage
import Mathlib.Data.List.Nodup

/-! # Every hierarchy is a forest

Building keeps the forest invariant. Only appending to a route adds an edge, and it adds edges from
routes without a parent to a target whose lineage holds none of them: the climb from the target is
the old one, and every other climb is the old one, followed by the climb from the target if its root
was in the batch. `build_isArranged` states what the invariant means for all places together.
-/

namespace RouteTree.Hierarchy

variable {hierarchy : Hierarchy}

/-! ## The invariant is kept -/

theorem forest_empty : empty.Forest where
  mem_members_iff target id := by
    cases target <;> simp [members, children, roots, node?, router?, placement, empty,
      Placement.ofTarget]
  members_nodup target := by
    cases target <;> simp [members, children, roots, node?, router?, empty]
  above_wellFounded := ⟨fun id => ⟨id, fun _ above => by
    simp [Above, parent?, placement, node?, empty, Placement.parent?] at above⟩⟩

/-- A call that places nothing and extends no list keeps a forest. -/
theorem Forest.of_same_places {next : Hierarchy} (forest : hierarchy.Forest)
    (placements : ∀ id, next.placement id = hierarchy.placement id)
    (lists : ∀ target, next.members target = hierarchy.members target) : next.Forest where
  mem_members_iff target id := by rw [placements, lists, forest.mem_members_iff]
  members_nodup target := by rw [lists]; exact forest.members_nodup target
  above_wellFounded := by
    have same : next.Above = hierarchy.Above := by
      funext above below
      simp only [Above, parent?, placements]
    rw [same]
    exact forest.above_wellFounded

section Attach

variable {target : Handle} {batch : List RouteId}
  (held : ∀ id ∈ batch, hierarchy.Holds (.route id))

include held in
/-- After attaching, a route is below another if it was before or if it was attached there. -/
theorem above_attach {parent child : RouteId}
    (above : (hierarchy.attach target batch).Above parent child) :
    (child ∈ batch ∧ target = .route parent) ∨ (child ∉ batch ∧ hierarchy.Above parent child) := by
  rw [Above, parent?_eq_some_iff, placement_attach target held] at above
  by_cases member : child ∈ batch
  · rw [if_pos member] at above
    refine .inl ⟨member, ?_⟩
    cases target with
    | route id =>
      simp only [Placement.ofTarget, Placement.below.injEq] at above
      rw [above]
    | router id => simp [Placement.ofTarget] at above
  · rw [if_neg member] at above
    exact .inr ⟨member, parent?_eq_some_iff.mpr above⟩

include held in
/-- The climb from the target meets nothing of the batch, so attaching leaves it as it is. -/
theorem acc_of_barred (forest : hierarchy.Forest)
    (clear : ∀ id ∈ batch, id ∉ hierarchy.barred target) {id : RouteId}
    (member : id ∈ hierarchy.barred target) : Acc (hierarchy.attach target batch).Above id := by
  induction id using forest.above_wellFounded.induction with
  | _ id ih =>
    refine ⟨id, fun parent above => ?_⟩
    rcases above_attach held above with ⟨inBatch, _⟩ | ⟨_, before⟩
    · exact (clear id inBatch member).elim
    · refine ih parent before ?_
      cases target with
      | route start => exact forest.parent_mem_lineage member before
      | router router => simp [barred] at member

include held in
theorem above_attach_wellFounded (forest : hierarchy.Forest)
    (clear : ∀ id ∈ batch, id ∉ hierarchy.barred target) :
    WellFounded (hierarchy.attach target batch).Above := by
  refine ⟨fun id => ?_⟩
  induction id using forest.above_wellFounded.induction with
  | _ id ih =>
    refine ⟨id, fun parent above => ?_⟩
    rcases above_attach held above with ⟨_, rfl⟩ | ⟨_, above⟩
    · exact acc_of_barred held forest clear (forest.self_mem_lineage parent)
    · exact ih parent above

include held in
theorem Forest.attach (forest : hierarchy.Forest) (known : hierarchy.Holds target)
    (detached : ∀ id ∈ batch, hierarchy.placement id = .detached) (distinct : batch.Nodup)
    (clear : ∀ id ∈ batch, id ∉ hierarchy.barred target) :
    (hierarchy.attach target batch).Forest where
  mem_members_iff other id := by
    rw [members_attach known, placement_attach target held]
    -- A route of the batch was in no list before, since it was placed nowhere.
    have absent : id ∈ batch → id ∉ hierarchy.members other := fun member listed =>
      Placement.ofTarget_ne_detached other
        (((forest.mem_members_iff other id).mp listed).symm.trans (detached id member))
    by_cases same : target = other
    · by_cases member : id ∈ batch <;> simp [same, member, forest.mem_members_iff]
    · by_cases member : id ∈ batch
      · simp [same, member, absent member]
      · simp [same, member, forest.mem_members_iff]
  members_nodup other := by
    rw [members_attach known]
    split_ifs with same
    · refine List.nodup_append.mpr ⟨forest.members_nodup other, distinct, ?_⟩
      rintro id listed _ member rfl
      exact Placement.ofTarget_ne_detached other
        (((forest.mem_members_iff other id).mp listed).symm.trans (detached id member))
    · exact forest.members_nodup other
  above_wellFounded := above_attach_wellFounded held forest clear

end Attach

theorem forest_preserved : Preserved Forest where
  addRoute forest _ := forest.of_same_places (placement_addRoute _) (members_addRoute _)
  addRouter _ _ forest := forest.of_same_places (placement_addRouter _) (members_addRouter _)
  attach forest known held detached distinct clear :=
    forest.attach held known detached distinct clear

theorem forest_build (edits : List Edit) : (build edits).Forest :=
  forest_preserved.build forest_empty edits

/-! ## What the invariant means -/

/-- All routes and all routers. -/
def handles (hierarchy : Hierarchy) : List Handle :=
  (List.range hierarchy.nodes.size).map (fun index => .route ⟨index⟩) ++
    (List.range hierarchy.routers.size).map fun index => .router ⟨index⟩

theorem mem_handles_iff {handle : Handle} :
    handle ∈ hierarchy.handles ↔ hierarchy.Holds handle := by
  rcases handle with ⟨⟨index⟩⟩ | ⟨⟨index⟩⟩ <;> simp [handles, Holds]

theorem handles_nodup (hierarchy : Hierarchy) : hierarchy.handles.Nodup := by
  refine List.nodup_append.mpr ⟨?_, ?_, ?_⟩
  · exact List.nodup_range.map fun _ _ same => by simpa using same
  · exact List.nodup_range.map fun _ _ same => by simpa using same
  · simp only [List.mem_map]
    rintro _ ⟨_, _, rfl⟩ _ ⟨_, _, rfl⟩
    simp

/-- The entries of all lists of children and of all lists of root routes. -/
def occurrences (hierarchy : Hierarchy) : List RouteId :=
  hierarchy.handles.flatMap hierarchy.members

theorem holds_of_mem_members {target : Handle} {id : RouteId}
    (member : id ∈ hierarchy.members target) : hierarchy.Holds target := by
  by_contra absent
  cases target with
  | route parent => simp [members, children, node?_eq_none absent] at member
  | router owner =>
    have missing : hierarchy.router? owner = none := by simpa [router?, Holds] using absent
    simp [members, roots, missing] at member

theorem mem_occurrences_iff {id : RouteId} :
    id ∈ hierarchy.occurrences ↔ ∃ target, id ∈ hierarchy.members target := by
  simp only [occurrences, List.mem_flatMap, mem_handles_iff]
  constructor
  · rintro ⟨target, _, member⟩
    exact ⟨target, member⟩
  · rintro ⟨target, member⟩
    exact ⟨target, holds_of_mem_members member, member⟩

namespace Forest

variable (forest : hierarchy.Forest)
include forest

/-- No route is listed twice: not by one target, and not by two. -/
theorem occurrences_nodup : hierarchy.occurrences.Nodup := by
  refine List.nodup_flatMap.mpr ⟨fun target _ => forest.members_nodup target, ?_⟩
  refine hierarchy.handles_nodup.imp fun {target other} different id left right => different ?_
  rw [← Placement.ofTarget_inj, ← (forest.mem_members_iff target id).mp left,
    (forest.mem_members_iff other id).mp right]

theorem isAppended_iff_mem (id : RouteId) :
    hierarchy.isAppended id = true ↔ id ∈ hierarchy.occurrences := by
  rw [isAppended_iff, mem_occurrences_iff]
  constructor
  · intro placed
    obtain ⟨target, same⟩ := Placement.exists_ofTarget placed
    exact ⟨target, (forest.mem_members_iff target id).mpr same⟩
  · rintro ⟨target, member⟩
    rw [(forest.mem_members_iff target id).mp member]
    exact Placement.ofTarget_ne_detached target

theorem parent?_of_mem_roots {router : RouterId} {id : RouteId}
    (member : id ∈ hierarchy.roots router) : hierarchy.parent? id = none := by
  rw [parent?, (forest.mem_members_iff (.router router) id).mp member]
  rfl

end Forest

/-- How routes stand to each other and to the routers, whatever calls were made. -/
structure IsArranged (hierarchy : Hierarchy) : Prop where
  /-- The children of a route are the routes whose parent it is. -/
  mem_children_iff : ∀ parent child,
    child ∈ hierarchy.children parent ↔ hierarchy.parent? child = some parent
  /-- Over all lists together, no route occurs twice. -/
  occurrences_nodup : hierarchy.occurrences.Nodup
  /-- The appended routes are those that some list holds. -/
  isAppended_iff : ∀ id, hierarchy.isAppended id = true ↔ id ∈ hierarchy.occurrences
  /-- The root routes of a router have no parent. -/
  parent?_of_mem_roots : ∀ router, ∀ id ∈ hierarchy.roots router, hierarchy.parent? id = none
  /-- No route is above itself. -/
  not_above_self : ∀ id, ¬ Relation.TransGen hierarchy.Above id id
  /-- No climb goes on for ever. -/
  above_wellFounded : WellFounded hierarchy.Above
  /-- A lineage starts at a route without a parent. -/
  lineage_head? : ∀ id,
    ∃ top, (hierarchy.lineage id).head? = some top ∧ hierarchy.parent? top = none
  /-- Every route of a lineage is the parent of the next. -/
  lineage_isChain : ∀ id, (hierarchy.lineage id).IsChain hierarchy.Above
  /-- A lineage ends with the route itself. -/
  lineage_getLast? : ∀ id, (hierarchy.lineage id).getLast? = some id
  /-- A router owns what is reached from its root routes through children. -/
  owner?_eq_some_iff : ∀ id router, hierarchy.owner? id = some router ↔
    ∃ root ∈ hierarchy.roots router,
      Relation.ReflTransGen (fun above below => below ∈ hierarchy.children above) root id

/-- The places of routes are arranged as a forest after any sequence of calls, refused or not. -/
theorem build_isArranged (edits : List Edit) : (build edits).IsArranged :=
  have forest := forest_build edits
  { mem_children_iff := fun parent child =>
      (forest.mem_members_iff (.route parent) child).trans parent?_eq_some_iff.symm
    occurrences_nodup := forest.occurrences_nodup
    isAppended_iff := forest.isAppended_iff_mem
    parent?_of_mem_roots := fun _ _ => forest.parent?_of_mem_roots
    not_above_self := forest.not_above_self
    above_wellFounded := forest.above_wellFounded
    lineage_head? := forest.lineage_head?
    lineage_isChain := forest.lineage_isChain
    lineage_getLast? := forest.lineage_getLast?
    owner?_eq_some_iff := fun _ _ => forest.owner?_eq_some_iff }

end RouteTree.Hierarchy
