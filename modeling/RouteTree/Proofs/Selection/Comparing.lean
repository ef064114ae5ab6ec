import RouteTree.Proofs.Selection.Answer

/-! # Two hierarchies compared

When two hierarchies are compared, their routes are compared first, and what is found among several
routes and for a path follows. It is enough that the answers of the routes agree up to a change of
outcomes, as long as the change neither makes nor undoes a match: how a traversal goes on depends on
nothing else.
-/

namespace RouteTree

namespace Run

/-- Go on with a second run if the first one finds nothing. -/
def otherwise (first second : Run Outcome) : Run Outcome := do
  match ← first with
  | .noMatch => second
  | found => return found

/-- A change that neither makes nor undoes a match can be made before or after going on. -/
theorem otherwise_map {change : Outcome → Outcome}
    (keeps : ∀ outcome, change outcome = .noMatch ↔ outcome = .noMatch)
    (first second : Run Outcome) :
    (change <$> first).otherwise (change <$> second) = change <$> first.otherwise second := by
  rw [otherwise, otherwise, bind_map_left, map_bind]
  refine bind_congr fun outcome => ?_
  by_cases none : outcome = .noMatch
  · rw [none, (keeps .noMatch).mpr rfl]
  · have changed : change outcome ≠ .noMatch := fun same => none ((keeps outcome).mp same)
    cases outcome <;> cases made : change _ <;> simp_all

end Run

namespace Hierarchy

variable {hierarchy before after : Hierarchy} {arrival arrival' : Arrival} {segments : List String}
  {id : RouteId} {ids : List RouteId}

/-! ## Several routes -/

theorem selectAmong_cons_otherwise (id : RouteId) (ids : List RouteId) :
    hierarchy.selectAmong arrival segments (id :: ids) =
      (hierarchy.select id arrival segments).otherwise
        (hierarchy.selectAmong arrival segments ids) :=
  selectAmong_cons id ids

theorem selectAmong_append_otherwise (ids more : List RouteId) :
    hierarchy.selectAmong arrival segments (ids ++ more) =
      (hierarchy.selectAmong arrival segments ids).otherwise
        (hierarchy.selectAmong arrival segments more) := by
  induction ids with
  | nil => rw [selectAmong_nil, Run.otherwise, pure_bind, List.nil_append]
  | cons id ids ih =>
    rw [List.cons_append, selectAmong_cons_otherwise, selectAmong_cons_otherwise, ih]
    simp only [Run.otherwise, bind_assoc]
    refine bind_congr fun outcome => ?_
    cases outcome <;> simp only [pure_bind]

/-- If the routes answer alike up to a change, so do the lists that they stand in. -/
theorem selectAmong_map {change : Outcome → Outcome}
    (keeps : ∀ outcome, change outcome = .noMatch ↔ outcome = .noMatch)
    (each : ∀ id ∈ ids,
      after.select id arrival' segments = change <$> before.select id arrival segments) :
    after.selectAmong arrival' segments ids =
      change <$> before.selectAmong arrival segments ids := by
  induction ids with
  | nil => rw [selectAmong_nil, selectAmong_nil, map_pure, (keeps .noMatch).mpr rfl]
  | cons id ids ih =>
    rw [selectAmong_cons_otherwise, selectAmong_cons_otherwise, each id List.mem_cons_self,
      ih fun other listed => each other (List.mem_cons_of_mem id listed), Run.otherwise_map keeps]

theorem selectAmong_congr
    (each : ∀ id ∈ ids, after.select id arrival' segments = before.select id arrival segments) :
    after.selectAmong arrival' segments ids = before.selectAmong arrival segments ids := by
  have unchanged := @selectAmong_map before after arrival arrival' segments ids id (fun _ => .rfl)
  simpa only [id_map] using unchanged fun id listed => by rw [id_map, each id listed]

/-! ## Paths -/

/-- The configuration with which a router reads a path. -/
theorem config_eq_getD (hierarchy : Hierarchy) (router : RouterId) :
    (hierarchy.router? router).elim .unmounted Router.config =
      (hierarchy.config? router).getD .unmounted := by
  rw [config?]
  cases hierarchy.router? router <;> rfl

/-- Routers with the same configuration match paths alike up to a change if their root routes answer
the address so. -/
theorem selectPath_map {change : Outcome → Outcome}
    (keeps : ∀ outcome, change outcome = .noMatch ↔ outcome = .noMatch) {router : RouterId}
    {path : String} (context : Value) (config : after.config? router = before.config? router)
    (same : ∀ address,
      Address.parse? ((before.router? router).elim .unmounted Router.config) path = some address →
        after.selectAmong (.ofAddress context address) address.segments (after.roots router) =
          change <$> before.selectAmong (.ofAddress context address) address.segments
            (before.roots router)) :
    after.selectPath router context path = change <$> before.selectPath router context path := by
  have configured : (after.router? router).elim .unmounted Router.config =
      (before.router? router).elim .unmounted Router.config := by
    rw [config_eq_getD, config_eq_getD, config]
  have unmatched := (keeps .noMatch).mpr rfl
  simp only [selectPath, configured]
  cases parsed : Address.parse? ((before.router? router).elim .unmounted Router.config) path with
  | none => simp only [map_bind, map_pure, unmatched]
  | some address =>
    have roots : after.selectAddress router context address =
        change <$> before.selectAddress router context address := same address parsed
    simp only [roots, bind_map_left, map_bind]
    refine bind_congr fun outcome => ?_
    by_cases none : outcome = .noMatch
    · simp only [none, unmatched, map_bind, map_pure]
    · have changed : change outcome ≠ .noMatch := fun same => none ((keeps outcome).mp same)
      cases outcome <;> cases made : change _ <;> simp_all

/-- Paths are matched alike by routers with the same configuration whose root routes answer the
address alike. -/
theorem selectPath_congr {router : RouterId} {path : String} (context : Value)
    (config : after.config? router = before.config? router)
    (same : ∀ address,
      Address.parse? ((before.router? router).elim .unmounted Router.config) path = some address →
        after.selectAmong (.ofAddress context address) address.segments (after.roots router) =
          before.selectAmong (.ofAddress context address) address.segments
            (before.roots router)) :
    after.selectPath router context path = before.selectPath router context path := by
  have unchanged := @selectPath_map before after id (fun _ => .rfl) router path context config
  simpa only [id_map] using unchanged fun address parsed => by rw [id_map, same address parsed]

end Hierarchy

end RouteTree
