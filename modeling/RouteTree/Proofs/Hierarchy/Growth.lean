import RouteTree.Proofs.Hierarchy.Forest

/-! # Hierarchies only grow

No call takes anything back. Routes and configurations stay what they are, a route that was appended
keeps its place, and the lists of members are only extended at their end. A route that stands alone
may still be appended with everything below it, so lineages grow upwards; they stop doing so once
their root belongs to a router, because a root that was appended is never appended again.
-/

namespace RouteTree.Hierarchy

variable {before middle after : Hierarchy}

/-- A later hierarchy still has all that an earlier one had. -/
structure Grown (before after : Hierarchy) : Prop where
  route? : ∀ {id route}, before.route? id = some route → after.route? id = some route
  config? : ∀ {id config}, before.config? id = some config → after.config? id = some config
  /-- A route that was appended keeps its place. -/
  placement : ∀ {id}, before.placement id ≠ .detached → after.placement id = before.placement id
  /-- What was appended to a target stands before all that is appended to it later. -/
  members : ∀ target, before.members target <+: after.members target

namespace Grown

theorem refl (hierarchy : Hierarchy) : Grown hierarchy hierarchy where
  route? := id
  config? := id
  placement _ := rfl
  members _ := List.prefix_rfl

theorem trans (first : Grown before middle) (second : Grown middle after) : Grown before after where
  route? found := second.route? (first.route? found)
  config? found := second.config? (first.config? found)
  placement placed := by
    have kept := first.placement placed
    rw [second.placement (kept ▸ placed), kept]
  members target := (first.members target).trans (second.members target)

end Grown

/-! ## Every call lets a hierarchy grow -/

theorem grown_addRoute (hierarchy : Hierarchy) (route : Route) :
    Grown hierarchy (hierarchy.addRoute route) where
  route? := by
    intro id other found
    have old : id ≠ hierarchy.nextRoute := by
      rintro rfl
      rw [route?, node?_nextRoute] at found
      contradiction
    rw [route?_addRoute, if_neg old, found]
  config? := id
  placement _ := placement_addRoute route _
  members target := by simp only [members_addRoute, List.prefix_rfl]

theorem grown_addRouter (hierarchy : Hierarchy) (config : Config) :
    Grown hierarchy (hierarchy.addRouter config) where
  route? := id
  config? := by
    intro id other found
    have old : id ≠ hierarchy.nextRouter := by
      rintro rfl
      rw [config?, router?_nextRouter] at found
      contradiction
    rw [config?_addRouter, if_neg old, found]
  placement _ := placement_addRouter config _
  members target := by simp only [members_addRouter, List.prefix_rfl]

theorem grown_attach {hierarchy : Hierarchy} {target : Handle} {batch : List RouteId}
    (known : hierarchy.Holds target) (held : ∀ id ∈ batch, hierarchy.Holds (.route id))
    (detached : ∀ id ∈ batch, hierarchy.placement id = .detached) :
    Grown hierarchy (hierarchy.attach target batch) where
  route? found := by rw [route?_attach, found]
  config? found := by rw [config?_attach, found]
  placement := by
    intro id placed
    have outside : id ∉ batch := fun member => placed (detached id member)
    rw [placement_attach target held, if_neg outside]
  members other := by
    rw [members_attach known]
    split_ifs with same
    · exact List.prefix_append _ batch
    · exact List.prefix_rfl

theorem grown_preserved (before : Hierarchy) : Preserved (Grown before) where
  addRoute grown _ := grown.trans (grown_addRoute _ _)
  addRouter _ _ grown := grown.trans (grown_addRouter _ _)
  attach grown known held detached _ _ := grown.trans (grown_attach known held detached)

theorem grown_editAll (hierarchy : Hierarchy) (edits : List Edit) :
    Grown hierarchy (hierarchy.editAll edits) :=
  (grown_preserved hierarchy).editAll (.refl hierarchy) edits

/-- Calls that follow others let grow what those have built. -/
theorem grown_build_append (edits later : List Edit) :
    Grown (build edits) (build (edits ++ later)) := by
  rw [build_append]
  exact grown_editAll (build edits) later

/-! ## Lineages and owners -/

namespace Grown

variable {id : RouteId}

theorem parent? (grown : Grown before after) {parent : RouteId}
    (placed : before.parent? id = some parent) : after.parent? id = some parent := by
  rw [parent?_eq_some_iff] at placed ⊢
  rw [grown.placement (by rw [placed]; nofun), placed]

theorem isAppended (grown : Grown before after) (appended : before.isAppended id = true) :
    after.isAppended id = true := by
  rw [isAppended_iff] at appended ⊢
  rwa [grown.placement appended]

/-- What grows above a lineage leaves the lineage itself as it was. -/
theorem lineage_suffix (grown : Grown before after) (forest : before.Forest)
    (later : after.Forest) (id : RouteId) : before.lineage id <:+ after.lineage id := by
  induction id using forest.above_wellFounded.induction with
  | _ id ih =>
    cases placed : before.parent? id with
    | none =>
      obtain ⟨above, lineage⟩ := later.lineage_eq_append id
      rw [forest.lineage_of_top placed, lineage]
      exact List.suffix_append above [id]
    | some parent =>
      rw [forest.lineage_of_parent placed, later.lineage_of_parent (grown.parent? placed)]
      obtain ⟨above, lineage⟩ := ih parent placed
      exact ⟨above, by rw [← lineage, List.append_assoc]⟩

/-- Nothing grows above a root that belongs to a router. -/
theorem kept_of_owned (grown : Grown before after) (forest : before.Forest) (later : after.Forest)
    {router : RouterId} (owned : before.owner? id = some router) :
    after.owner? id = some router ∧ after.lineage id = before.lineage id := by
  induction id using forest.above_wellFounded.induction with
  | _ id ih =>
    cases placed : before.parent? id with
    | none =>
      rw [forest.owner?_of_top placed, Placement.router?_eq_some_iff] at owned
      have kept : after.placement id = .root router := by
        rw [grown.placement (by rw [owned]; nofun), owned]
      have top : after.parent? id = none := by rw [Hierarchy.parent?, kept]; rfl
      rw [later.owner?_of_top top, kept, later.lineage_of_top top, forest.lineage_of_top placed]
      exact ⟨rfl, rfl⟩
    | some parent =>
      have below := grown.parent? placed
      rw [forest.owner?_of_parent placed] at owned
      obtain ⟨owner, lineage⟩ := ih parent placed owned
      rw [later.owner?_of_parent below, later.lineage_of_parent below, lineage,
        forest.lineage_of_parent placed]
      exact ⟨owner, rfl⟩

end Grown

end RouteTree.Hierarchy
