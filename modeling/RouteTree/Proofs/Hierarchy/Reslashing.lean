import RouteTree.Proofs.Pattern.LeadingSlash

/-! # Hierarchies that differ by slashes at the start of patterns

No call looks at the slash at the start of a pattern, so calls that differ only by such slashes
build hierarchies that differ only by them: the same routes are placed and the same batches are
refused.
-/

namespace RouteTree

namespace Route

theorem Reslashed.refl (route : Route) : Reslashed route route := by
  refine ⟨?_, rfl, rfl, rfl, rfl, rfl⟩
  cases route.pattern with
  | none => exact .none
  | some pattern => exact .some (.inl rfl)

end Route

namespace Hierarchy

/-- Two calls that differ, if at all, by one slash at the start of a pattern. The pattern can be
read with the slash and without it. -/
inductive Edit.Reslashed : Edit → Edit → Prop
  | same (edit : Edit) : Reslashed edit edit
  | route {spec : RouteSpec} {text text' : String} {pattern pattern' : Pattern}
      (written : spec.path = some text) (differ : text' = "/" ++ text ∨ text = "/" ++ text')
      (parsed : Pattern.parse text = .ok pattern) (parsed' : Pattern.parse text' = .ok pattern') :
      Reslashed (.route spec) (.route { spec with path := some text' })

/-- Two hierarchies whose patterns differ, if at all, by one slash at the start each. -/
structure Reslashed (before after : Hierarchy) : Prop where
  placement : ∀ id, after.placement id = before.placement id
  members : ∀ target, after.members target = before.members target
  config? : ∀ router, after.config? router = before.config? router
  route? : ∀ id, Option.Rel Route.Reslashed (before.route? id) (after.route? id)

variable {before after : Hierarchy} (reslashed : Reslashed before after)
include reslashed

/-! ## The places of routes -/

theorem Reslashed.holds_iff (handle : Handle) : after.Holds handle ↔ before.Holds handle := by
  cases handle with
  | route id =>
    have related := reslashed.route? id
    rw [← route?_isSome_iff, ← route?_isSome_iff]
    generalize before.route? id = found at related
    generalize after.route? id = found' at related
    cases related <;> exact .rfl
  | router id => rw [← config?_isSome_iff, ← config?_isSome_iff, reslashed.config?]

theorem Reslashed.nextRoute_eq : after.nextRoute = before.nextRoute := by
  have here := reslashed.holds_iff (.route ⟨before.nodes.size⟩)
  have there := reslashed.holds_iff (.route ⟨after.nodes.size⟩)
  simp only [Holds] at here there
  have sizes : after.nodes.size = before.nodes.size := by omega
  rw [nextRoute, sizes, nextRoute]

theorem Reslashed.nextRouter_eq : after.nextRouter = before.nextRouter := by
  have here := reslashed.holds_iff (.router ⟨before.routers.size⟩)
  have there := reslashed.holds_iff (.router ⟨after.routers.size⟩)
  simp only [Holds] at here there
  have sizes : after.routers.size = before.routers.size := by omega
  rw [nextRouter, sizes, nextRouter]

theorem Reslashed.lineage_eq (id : RouteId) : after.lineage id = before.lineage id := by
  have climbs : ∀ steps id, after.climb steps id = before.climb steps id := by
    intro steps
    induction steps with
    | zero => exact fun _ => rfl
    | succ steps ih =>
      intro id
      simp only [climb, parent?, reslashed.placement, ih]
  have sizes : after.nodes.size = before.nodes.size := congrArg RouteId.index reslashed.nextRoute_eq
  rw [lineage, sizes, climbs, lineage]

theorem Reslashed.owner?_eq (id : RouteId) : after.owner? id = before.owner? id := by
  simp only [owner?, reslashed.lineage_eq, reslashed.placement]

/-! ## Calls -/

theorem Reslashed.addRoute {route route' : Route} (same : Route.Reslashed route route') :
    Reslashed (before.addRoute route) (after.addRoute route') where
  placement id := by simp only [placement_addRoute, reslashed.placement]
  members target := by simp only [members_addRoute, reslashed.members]
  config? router := reslashed.config? router
  route? id := by
    rw [route?_addRoute, route?_addRoute, reslashed.nextRoute_eq]
    split
    · exact .some same
    · exact reslashed.route? id

theorem Reslashed.addRouter (config : Config) :
    Reslashed (before.addRouter config) (after.addRouter config) where
  placement id := reslashed.placement id
  members target := by simp only [members_addRouter, reslashed.members]
  config? router := by
    rw [config?_addRouter, config?_addRouter, reslashed.nextRouter_eq, reslashed.config?]
  route? id := reslashed.route? id

theorem Reslashed.attach {target : Handle} {batch : List RouteId} (held : before.Holds target)
    (known : ∀ id ∈ batch, before.Holds (.route id)) :
    Reslashed (before.attach target batch) (after.attach target batch) where
  placement id := by
    have known' : ∀ id ∈ batch, after.Holds (.route id) := fun id member =>
      (reslashed.holds_iff _).mpr (known id member)
    rw [placement_attach target known', placement_attach target known, reslashed.placement]
  members other := by
    have held' := (reslashed.holds_iff target).mpr held
    rw [members_attach held', members_attach held, reslashed.members]
  config? router := by rw [config?_attach, config?_attach, reslashed.config?]
  route? id := by
    rw [route?_attach, route?_attach]
    exact reslashed.route? id

/-- The same batches are refused, for the same reasons. -/
theorem Reslashed.append_eq (target : Handle) (batch : List RouteId) :
    after.append target batch =
      (before.append target batch).map fun _ => after.attach target batch := by
  have appended : after.isAppended = before.isAppended := by
    funext id
    rw [isAppended, isAppended, reslashed.placement]
  have barred : after.barred target = before.barred target := by
    cases target with
    | route id => exact reslashed.lineage_eq id
    | router id => rfl
  rw [append, append, appended, barred]
  split_ifs <;> rfl

/-- Calls that differ by a slash at the start of a pattern keep the difference to such slashes. -/
theorem Reslashed.edit {edit edit' : Edit} (same : Edit.Reslashed edit edit') :
    Reslashed (before.edit edit) (after.edit edit') := by
  cases same with
  | same edit =>
    cases edit with
    | route spec =>
      simp only [Hierarchy.edit]
      split
      · exact reslashed.addRoute (.refl _)
      · exact reslashed
    | router mount decodesSegments => exact reslashed.addRouter (.ofMount mount decodesSegments)
    | append target batch =>
      simp only [Hierarchy.edit, reslashed.holds_iff, reslashed.append_eq]
      split_ifs with held
      · cases appended : before.append target batch with
        | error error => exact reslashed
        | ok next =>
          obtain ⟨_, _, _, rfl⟩ := append_eq_ok_iff.mp appended
          exact reslashed.attach held.1 held.2
      · exact reslashed
  | @route spec text text' pattern pattern' written differ parsed parsed' =>
    obtain ⟨proper, rfl⟩ := Pattern.parse_eq_ok_iff.mp parsed
    obtain ⟨proper', rfl⟩ := Pattern.parse_eq_ok_iff.mp parsed'
    have pair : Pattern.Reslashed pattern pattern' := .inr differ
    have plain := pair.unslashed_eq proper proper'
    have useful : pattern'.hasParameters = pattern.hasParameters :=
      (congrArg Pattern.hasParameters plain : pattern'.unslashed.hasParameters = _)
    have written' : ({ spec with path := some pattern'.text } : RouteSpec).path =
        some pattern'.text := rfl
    have constructed := Route.ofSpec_of_read (RouteSpec.pattern_of_parse written parsed)
    have constructed' := Route.ofSpec_of_read (RouteSpec.pattern_of_parse written' parsed')
    simp only [Hierarchy.edit, constructed, constructed', Option.any_some, useful]
    split_ifs
    · exact reslashed
    · exact reslashed.addRoute ⟨.some pair, rfl, rfl, rfl, rfl, rfl⟩

theorem Reslashed.editAll {edits edits' : List Edit}
    (same : List.Forall₂ Edit.Reslashed edits edits') :
    Reslashed (before.editAll edits) (after.editAll edits') := by
  induction same generalizing before after with
  | nil => exact reslashed
  | cons first _ ih => exact ih (reslashed.edit first)

omit reslashed in
/-- Sequences of calls that differ by slashes at the start of patterns build hierarchies that differ
by them. -/
theorem reslashed_build {edits edits' : List Edit}
    (same : List.Forall₂ Edit.Reslashed edits edits') : Reslashed (build edits) (build edits') := by
  have initial : Reslashed empty empty := ⟨fun _ => rfl, fun _ => rfl, fun _ => rfl, fun _ => .none⟩
  exact initial.editAll same

end Hierarchy

end RouteTree
