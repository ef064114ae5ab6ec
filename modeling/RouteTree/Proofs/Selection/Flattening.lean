import RouteTree.Proofs.Link.Failure
import RouteTree.Proofs.Pattern.Joining
import RouteTree.Proofs.Selection.Calls
import RouteTree.Proofs.Selection.Extraction

/-! # One route for two

A route with a single child can be replaced by one route whose pattern joins those of both, as long
as neither calls anything before a handler and neither has an outlet. The outer route matches a head
of the segments and the inner one the rest, so that both match where the joined pattern does; what
the two selections hold together, the one selection holds. The only other thing that the outer route
can select is itself, for segments that the joined pattern is too long for. Links are the same
because they do not show where one pattern ends and the next one starts.
-/

namespace RouteTree

namespace Route

variable {route : Route} {id : RouteId} {isLeaf : Bool} {arrival : Arrival} {segments : List String}
  {below : List String → Run Outcome} {first second : Selection} {others : List Selection}

/-- A route that calls nothing but a handler, without an outlet. -/
structure IsBare (route : Route) : Prop where
  guard : route.guard = none
  extractor : route.extractor = none
  outlet : route.outlet.isNull = true

/-- The selection of a route with the parameters that a match gives it. -/
def plainSelection (route : Route) (id : RouteId) (arrival : Arrival) (values : List String)
    (kind : MatchKind) : Selection :=
  route.selection id arrival values
    (route.defaultParams values (route.searchGroups arrival.search)) kind

theorem entries_plainSelection {pattern : Pattern} {values : List String} {kind : MatchKind}
    (present : route.pattern = some pattern) (proper : pattern.WellFormed)
    (captured : pattern.captures? segments = some values) :
    (route.plainSelection id arrival values kind).params.entries =
      pattern.assignments values arrival.search := by
  have distinct := Pattern.nodup_keys_assignments proper captured arrival.search
  change (route.defaultParams values (route.searchGroups arrival.search)).entries = _
  rw [defaultParams_eq present, Params.entries, Entries.ofList_of_nodup distinct]

theorem groups_plainSelection {pattern : Pattern} {values : List String} {kind : MatchKind}
    (present : route.pattern = some pattern) :
    (route.plainSelection id arrival values kind).groups =
      pattern.searchNames.filterMap (searchGroup? arrival.search) := by
  rw [plainSelection, selection, searchGroups, present]

/-- A bare route admits every match. -/
theorem IsBare.judge_eq (bare : route.IsBare) (values : List String) :
    route.judge id arrival values =
      pure (.admitted (route.defaultParams values (route.searchGroups arrival.search))) := by
  rw [judge, extract, bare.extractor, pure_bind]
  simp only [consult, bare.guard, pure_bind]

/-- The step of a bare route for segments that it takes. -/
theorem IsBare.answer_of_take? (bare : route.IsBare) {values rest : List String}
    (taken : route.take? isLeaf arrival.trailingSlash segments = some (values, rest)) :
    route.answer id isLeaf arrival segments below =
      if rest.isEmpty then pure (.chain (route.plainSelection id arrival values .index) [])
      else Tree.complete route (route.plainSelection id arrival values) <$> below rest := by
  rw [answer, taken]
  simp only [bare.judge_eq, pure_bind]
  rfl

theorem answer_of_take?_eq_none
    (untaken : route.take? isLeaf arrival.trailingSlash segments = none) :
    route.answer id isLeaf arrival segments below = pure .noMatch := by
  rw [answer, untaken]

/-- A bare route without children takes the segments that it consumes whole. -/
theorem IsBare.take?_leaf_iff (bare : route.IsBare) {trailingSlash : Bool}
    {values rest : List String} :
    route.take? true trailingSlash segments = some (values, rest) ↔
      route.captures? segments = some values ∧ route.leftover segments = [] ∧
        route.endsWith trailingSlash = true ∧ rest = [] := by
  rw [take?_eq, Option.bind_eq_some_iff]
  cases done : route.leftover segments with
  | nil => cases route.endsWith trailingSlash <;> simp [@eq_comm _ [] rest]
  | cons next others => simp [bare.outlet]

/-- A bare route without children selects itself, or nothing. -/
theorem IsBare.answer_leaf_iff (bare : route.IsBare) :
    (route.answer id true arrival segments below).result = .ok (.chain first others) ↔
      ∃ values, route.captures? segments = some values ∧ route.leftover segments = [] ∧
        route.endsWith arrival.trailingSlash = true ∧
        first = route.plainSelection id arrival values .index ∧ others = [] := by
  constructor
  · intro result
    cases taken : route.take? true arrival.trailingSlash segments with
    | none =>
      rw [answer_of_take?_eq_none taken] at result
      cases result
    | some step =>
      obtain ⟨values, rest⟩ := step
      obtain ⟨captured, done, ends, rfl⟩ := bare.take?_leaf_iff.mp taken
      rw [bare.answer_of_take? taken] at result
      obtain ⟨rfl, rfl⟩ := Outcome.chain.inj (Except.ok.inj result)
      exact ⟨values, captured, done, ends, rfl, rfl⟩
  · rintro ⟨values, captured, done, ends, rfl, rfl⟩
    rw [bare.answer_of_take? (bare.take?_leaf_iff.mpr ⟨captured, done, ends, rfl⟩)]
    rfl

/-- A bare route has something selected behind it if its children do so for what it leaves over. -/
theorem IsBare.answer_pair_iff (bare : route.IsBare) :
    (route.answer id false arrival segments below).result = .ok (.chain first (second :: others)) ↔
      ∃ values, route.captures? segments = some values ∧ route.leftover segments ≠ [] ∧
        first = route.plainSelection id arrival values .inner ∧
        (below (route.leftover segments)).result = .ok (.chain second others) := by
  constructor
  · intro result
    cases taken : route.take? false arrival.trailingSlash segments with
    | none =>
      rw [answer_of_take?_eq_none taken] at result
      cases result
    | some step =>
      obtain ⟨values, rest⟩ := step
      obtain ⟨captured, rfl, _⟩ := take?_eq_some taken
      rw [bare.answer_of_take? taken] at result
      split_ifs at result with done
      · cases result
      · rw [Run.map_eq] at result
        cases onward : (below (route.leftover segments)).result with
        | error failure => simp [onward, Except.map] at result
        | ok outcome =>
          rw [onward] at result
          rcases Tree.complete_eq_chain (Except.ok.inj result) with
            ⟨next, rest, rfl, same, behind⟩ | ⟨_, behind⟩
          · obtain ⟨rfl, rfl⟩ := List.cons.inj behind
            exact ⟨values, captured, by simpa using done, same, rfl⟩
          · contradiction
  · rintro ⟨values, captured, more, rfl, onward⟩
    have taken : route.take? false arrival.trailingSlash segments =
        some (values, route.leftover segments) := by
      simp [take?_eq, captured, more]
    rw [bare.answer_of_take? taken, if_neg (by simpa using more), Run.map_eq, onward]
    rfl

end Route

/-! ## What the two selections hold together -/

/-- A selection holds what two selections hold together. No name is among the parameters twice, so
that their order does not matter. -/
structure Selection.Unites (whole upper lower : Selection) : Prop where
  values_eq : whole.values = upper.values ++ lower.values
  params_perm : whole.params.entries.Perm (upper.params.entries ++ lower.params.entries)
  keys_nodup : (whole.params.entries.map Prod.fst).Nodup
  groups_eq : whole.groups = upper.groups ++ lower.groups

/-- The assignments of a joined pattern are those of both patterns. -/
theorem Pattern.Joins.assignments_perm {joined first second : Pattern}
    (joins : joined.Joins first second)
    (parameters : joined.parameters = first.parameters ++ second.parameters)
    {before : List String} (paired : first.parameters.length = before.length)
    (after : List String) (search : Search) :
    (joined.assignments (before ++ after) search).Perm
      (first.assignments before search ++ second.assignments after search) := by
  simp only [assignments, parameters, joins.searchNames_eq, List.zip_append paired,
    List.filterMap_append, List.map_append, List.append_assoc]
  exact (List.perm_append_comm_assoc _ _ _).append_left _

namespace Hierarchy

variable {hierarchy : Hierarchy} {id child outer inner flat : RouteId} {children : List RouteId}
  {route : Route} {pattern : Pattern} {arrival : Arrival} {segments : List String}
  {selection onward : Selection} {others : List Selection}

/-- A bare route with a pattern and the routes placed below it. -/
structure HasBare (hierarchy : Hierarchy) (id : RouteId) (route : Route) (pattern : Pattern)
    (children : List RouteId) : Prop where
  found : hierarchy.route? id = some route
  bare : route.IsBare
  pattern_eq : route.pattern = some pattern
  children_eq : hierarchy.children id = children

/-- A route with a single child, and a route elsewhere that joins both. -/
structure Flattening (hierarchy : Hierarchy) (outer inner flat : RouteId) where
  upper : Route
  lower : Route
  whole : Route
  first : Pattern
  second : Pattern
  joined : Pattern
  hasOuter : hierarchy.HasBare outer upper first [inner]
  hasInner : hierarchy.HasBare inner lower second []
  hasFlat : hierarchy.HasBare flat whole joined []
  joins : joined.Joins first second
  slashMustMatch_eq : whole.slashMustMatch = lower.slashMustMatch

/-- A bare route without children is selected for what its pattern matches whole. -/
theorem HasBare.select_leaf_iff (has : hierarchy.HasBare id route pattern [])
    (forest : hierarchy.Forest) :
    (hierarchy.select id arrival segments).result = .ok (.chain selection others) ↔
      ∃ values, pattern.captures? segments = some values ∧ pattern.leftover segments = [] ∧
        route.endsWith arrival.trailingSlash = true ∧
        selection = route.plainSelection id arrival values .index ∧ others = [] := by
  rw [forest.select_of_route? has.found, has.children_eq, List.isEmpty_nil,
    has.bare.answer_leaf_iff, Route.captures?, Route.leftover, has.pattern_eq]

/-- A bare route with one child is selected above it if the child is selected for what is left
over. -/
theorem HasBare.select_pair_iff (has : hierarchy.HasBare id route pattern [child])
    (forest : hierarchy.Forest) :
    (hierarchy.select id arrival segments).result = .ok (.chain selection (onward :: others)) ↔
      ∃ values, pattern.captures? segments = some values ∧ pattern.leftover segments ≠ [] ∧
        selection = route.plainSelection id arrival values .inner ∧
        (hierarchy.select child arrival (pattern.leftover segments)).result =
          .ok (.chain onward others) := by
  rw [forest.select_of_route? has.found, has.children_eq]
  change (route.answer id false arrival segments _).result = _ ↔ _
  rw [has.bare.answer_pair_iff, Route.captures?, Route.leftover, has.pattern_eq]
  simp only [selectAmong_singleton]

theorem HasBare.wellFormed (has : hierarchy.HasBare id route pattern children)
    (constructed : hierarchy.Constructed) : pattern.WellFormed :=
  constructed.wellFormed has.found pattern has.pattern_eq

namespace Flattening

variable (flattening : hierarchy.Flattening outer inner flat)

theorem endsWith_eq (trailingSlash : Bool) :
    flattening.whole.endsWith trailingSlash = flattening.lower.endsWith trailingSlash := by
  rw [Route.endsWith, Route.endsWith, flattening.hasFlat.pattern_eq, flattening.hasInner.pattern_eq]
  simp only [flattening.slashMustMatch_eq, flattening.joins.trailingSlash_eq]

variable (forest : hierarchy.Forest)
include forest

/-- Both routes are selected where the second pattern matches whole what the first one leaves
over. -/
theorem select_outer_iff (proper : flattening.second.WellFormed) :
    (hierarchy.select outer arrival segments).result = .ok (.chain selection [onward]) ↔
      ∃ before after, flattening.first.captures? segments = some before ∧
        flattening.second.captures? (flattening.first.leftover segments) = some after ∧
        flattening.second.leftover (flattening.first.leftover segments) = [] ∧
        flattening.lower.endsWith arrival.trailingSlash = true ∧
        selection = flattening.upper.plainSelection outer arrival before .inner ∧
        onward = flattening.lower.plainSelection inner arrival after .index := by
  simp only [flattening.hasOuter.select_pair_iff forest,
    flattening.hasInner.select_leaf_iff forest, and_true]
  constructor
  · rintro ⟨before, captured, _, rfl, after, further, done, ends, rfl⟩
    exact ⟨before, after, captured, further, done, ends, rfl, rfl⟩
  · rintro ⟨before, after, captured, further, done, ends, rfl, rfl⟩
    exact ⟨before, captured, proper.ne_nil_of_captures? further, rfl, after, further, done, ends,
      rfl⟩

/-- The flat route is selected for the same segments. -/
theorem select_flat_iff :
    (hierarchy.select flat arrival segments).result = .ok (.chain selection others) ↔
      ∃ before after, flattening.first.captures? segments = some before ∧
        flattening.second.captures? (flattening.first.leftover segments) = some after ∧
        flattening.second.leftover (flattening.first.leftover segments) = [] ∧
        flattening.lower.endsWith arrival.trailingSlash = true ∧
        selection = flattening.whole.plainSelection flat arrival (before ++ after) .index ∧
        others = [] := by
  rw [flattening.hasFlat.select_leaf_iff forest, flattening.joins.leftover_eq,
    flattening.endsWith_eq]
  simp only [flattening.joins.captures?_eq_some_iff]
  constructor
  · rintro ⟨_, ⟨before, after, captured, further, rfl⟩, done, ends, rfl, rfl⟩
    exact ⟨before, after, captured, further, done, ends, rfl, rfl⟩
  · rintro ⟨before, after, captured, further, done, ends, rfl, rfl⟩
    exact ⟨_, ⟨before, after, captured, further, rfl⟩, done, ends, rfl, rfl⟩

omit forest

/-- The selection of the flat route unites those of the two routes. -/
theorem unites (constructed : hierarchy.Constructed) {before after : List String}
    (captured : flattening.first.captures? segments = some before)
    (further : flattening.second.captures? (flattening.first.leftover segments) = some after) :
    (flattening.whole.plainSelection flat arrival (before ++ after) .index).Unites
      (flattening.upper.plainSelection outer arrival before .inner)
      (flattening.lower.plainSelection inner arrival after .index) := by
  have proper := flattening.hasFlat.wellFormed constructed
  have proper₁ := flattening.hasOuter.wellFormed constructed
  have proper₂ := flattening.hasInner.wellFormed constructed
  have both : flattening.joined.captures? segments = some (before ++ after) :=
    flattening.joins.captures?_eq_some_iff.mpr ⟨before, after, captured, further, rfl⟩
  refine ⟨rfl, ?_, ?_, ?_⟩
  · rw [Route.entries_plainSelection flattening.hasFlat.pattern_eq proper both,
      Route.entries_plainSelection flattening.hasOuter.pattern_eq proper₁ captured,
      Route.entries_plainSelection flattening.hasInner.pattern_eq proper₂ further]
    apply flattening.joins.assignments_perm
    · exact flattening.joins.parameters_eq proper proper₁ proper₂
    · exact Pattern.length_values_of_captures? proper₁ captured
  · rw [Route.entries_plainSelection flattening.hasFlat.pattern_eq proper both]
    exact Pattern.nodup_keys_assignments proper both arrival.search
  · rw [Route.groups_plainSelection flattening.hasFlat.pattern_eq,
      Route.groups_plainSelection flattening.hasOuter.pattern_eq,
      Route.groups_plainSelection flattening.hasInner.pattern_eq, flattening.joins.searchNames_eq,
      List.filterMap_append]

end Flattening

/-! ## Links -/

/-- In a link, a joined pattern stands for both patterns. -/
theorem ofPatterns_joins {joined first second : Pattern} {above : List Pattern}
    {arguments : Entries} {written : List String} {slash : Bool}
    (joins : joined.Joins first second)
    (proper : ∀ pattern ∈ above ++ [joined], pattern.WellFormed)
    (proper' : ∀ pattern ∈ above ++ [first, second], pattern.WellFormed) :
    Link.ofPatterns arguments written slash (above ++ [joined]) =
      Link.ofPatterns arguments written slash (above ++ [first, second]) := by
  cases computed : Link.ofPatterns arguments written slash (above ++ [first, second]) with
  | error error =>
    rw [Link.ofPatterns_eq_error_iff] at computed ⊢
    simpa [Pattern.pathNames, joins.segments_eq] using computed
  | ok link =>
    obtain ⟨given, rfl⟩ := (Link.ofPatterns_eq_ok_iff proper' written slash).mp computed
    have parameters := joins.parameters_eq (proper joined (by simp)) (proper' first (by simp))
      (proper' second (by simp))
    apply (Link.ofPatterns_eq_ok_iff proper written slash).mpr
    constructor
    · simpa [or_imp, forall_and, parameters] using given
    · rw [Link.chainFields_eq_flatMap proper, Link.chainFields_eq_flatMap proper']
      simp [Pattern.filledSegments, joins.segments_eq, joins.searchNames_eq, joins.trailingSlash_eq]

/-- The patterns of the routes above a route. -/
def patternsAbove (hierarchy : Hierarchy) (id : RouteId) : List Pattern :=
  (hierarchy.parent? id).elim [] hierarchy.patterns

theorem Forest.patterns_of_route? (forest : hierarchy.Forest)
    (found : hierarchy.route? id = some route) (present : route.pattern = some pattern) :
    hierarchy.patterns id = hierarchy.patternsAbove id ++ [pattern] := by
  rw [patterns_eq_filterMap_route?, patternsAbove]
  cases placed : hierarchy.parent? id with
  | none => simp [forest.lineage_of_top placed, found, present]
  | some parent =>
    rw [forest.lineage_of_parent placed, List.filterMap_append, ← patterns_eq_filterMap_route?]
    simp [found, present]

/-- Routers with one configuration make the same links to the inner and to the flat route. -/
theorem Flattening.link_eq (flattening : hierarchy.Flattening outer inner flat)
    (forest : hierarchy.Forest) (constructed : hierarchy.Constructed) {router router' : RouterId}
    (config : hierarchy.config? router = hierarchy.config? router')
    (owned : hierarchy.owner? outer = some router) (owned' : hierarchy.owner? flat = some router')
    (above : hierarchy.patternsAbove outer = hierarchy.patternsAbove flat) (arguments : Entries) :
    hierarchy.link router inner arguments = hierarchy.link router' flat arguments := by
  have placed : hierarchy.parent? inner = some outer :=
    forest.above_of_mem_children (by simp [flattening.hasOuter.children_eq])
  have nested : hierarchy.patterns inner =
      hierarchy.patternsAbove flat ++ [flattening.first, flattening.second] := by
    rw [forest.patterns_of_route? flattening.hasInner.found flattening.hasInner.pattern_eq,
      patternsAbove, placed, Option.elim_some,
      forest.patterns_of_route? flattening.hasOuter.found flattening.hasOuter.pattern_eq, above,
      List.append_assoc]
    rfl
  have joined : hierarchy.patterns flat =
      hierarchy.patternsAbove flat ++ [flattening.joined] :=
    forest.patterns_of_route? flattening.hasFlat.found flattening.hasFlat.pattern_eq
  rw [link_of_owned ((forest.owner?_of_parent placed).trans owned), link_of_owned owned',
    mount_eq_config?, mount_eq_config?, config, linkParts, linkParts, nested, joined,
    ofPatterns_joins flattening.joins]
  · rw [← joined]
    exact constructed.patterns_wellFormed
  · rw [← nested]
    exact constructed.patterns_wellFormed

/-! ## The two ways agree -/

/-- What is asked of a route with a single child and of the route that joins both. -/
structure Flattens (hierarchy : Hierarchy) (outer inner flat : RouteId) : Prop where
  /-- The flat route is selected exactly where both routes are. -/
  selected_iff : ∀ arrival segments,
    (∃ first others, (hierarchy.select flat arrival segments).result = .ok (.chain first others)) ↔
      ∃ upper lower, (hierarchy.select outer arrival segments).result = .ok (.chain upper [lower]) ∧
        upper.route = outer ∧ lower.route = inner
  /-- It is then the only route of its chain, and holds what the two selections hold. -/
  unites : ∀ arrival segments first others upper lower,
    (hierarchy.select flat arrival segments).result = .ok (.chain first others) →
    (hierarchy.select outer arrival segments).result = .ok (.chain upper [lower]) →
    others = [] ∧ first.Unites upper lower
  /-- As root routes of routers with one configuration, they have the same links. -/
  link_eq : ∀ router router' arguments,
    hierarchy.config? router = hierarchy.config? router' →
    outer ∈ hierarchy.roots router → flat ∈ hierarchy.roots router' →
    hierarchy.link router inner arguments = hierarchy.link router' flat arguments
  /-- So they have below other routes, if the same patterns stand above them. -/
  link_below_eq : ∀ router router' arguments,
    hierarchy.config? router = hierarchy.config? router' →
    hierarchy.owner? outer = some router → hierarchy.owner? flat = some router' →
    hierarchy.patternsAbove outer = hierarchy.patternsAbove flat →
    hierarchy.link router inner arguments = hierarchy.link router' flat arguments

/-- A route with a single child and a route that joins both match the same segments, hold the same
and have the same links. The two patterns share no name, since the joined one was read. -/
theorem nesting_agrees_with_flattening {edits : List Edit}
    (flattening : (build edits).Flattening outer inner flat) :
    (build edits).Flattens outer inner flat := by
  have forest := forest_build edits
  have constructed := constructed_build edits
  have proper := flattening.hasInner.wellFormed constructed
  refine ⟨?_, ?_, ?_, ?_⟩
  · intro arrival segments
    simp only [flattening.select_flat_iff forest, flattening.select_outer_iff forest proper]
    constructor
    · rintro ⟨_, _, before, after, captured, further, done, ends, rfl, rfl⟩
      exact ⟨_, _, ⟨before, after, captured, further, done, ends, rfl, rfl⟩, rfl, rfl⟩
    · rintro ⟨_, _, ⟨before, after, captured, further, done, ends, rfl, rfl⟩, _, _⟩
      exact ⟨_, _, before, after, captured, further, done, ends, rfl, rfl⟩
  · intro arrival segments first others upper lower one two
    obtain ⟨before, after, captured, further, _, _, rfl, rfl⟩ :=
      (flattening.select_flat_iff forest).mp one
    obtain ⟨before', after', captured', further', _, _, rfl, rfl⟩ :=
      (flattening.select_outer_iff forest proper).mp two
    obtain rfl : before = before' := Option.some.inj (captured.symm.trans captured')
    obtain rfl : after = after' := Option.some.inj (further.symm.trans further')
    exact ⟨rfl, flattening.unites constructed captured further⟩
  · intro router router' arguments config root root'
    apply flattening.link_eq forest constructed config
    · exact forest.owner?_eq_some_iff.mpr ⟨outer, root, .refl⟩
    · exact forest.owner?_eq_some_iff.mpr ⟨flat, root', .refl⟩
    · rw [patternsAbove, patternsAbove, forest.parent?_of_mem_roots root,
        forest.parent?_of_mem_roots root']
  · intro router router' arguments config owned owned' above
    exact flattening.link_eq forest constructed config owned owned' above arguments

/-! ### A post of a user -/

def userPattern : Pattern :=
  ⟨[.literal "users", .parameter "user"], ["user"], ["tab"], true, false⟩

def postPattern : Pattern :=
  ⟨[.literal "posts", .parameter "post"], ["post"], ["page"], false, true⟩

def userPostPattern : Pattern :=
  ⟨[.literal "users", .parameter "user", .literal "posts", .parameter "post"], ["user", "post"],
    ["tab", "page"], true, true⟩

def bareRoute (pattern : Pattern) : Route :=
  ⟨some pattern, none, none, none, .null, true⟩

theorem isBare_bareRoute (pattern : Pattern) : (bareRoute pattern).IsBare :=
  ⟨rfl, rfl, rfl⟩

def postEdits : List Edit :=
  [.router "/app" true,
    .router "/app" true,
    .route ⟨some "/users/\x7buser\x7d?\x7btab\x7d", none, none, none, .null, true⟩,
    .route ⟨some "posts/\x7bpost\x7d/?\x7bpage\x7d", none, none, none, .null, true⟩,
    .route ⟨some "/users/\x7buser\x7d/posts/\x7bpost\x7d/?\x7btab\x7d&\x7bpage\x7d", none, none,
      none, .null, true⟩,
    .append (.route ⟨0⟩) [⟨1⟩],
    .append (.router ⟨0⟩) [⟨0⟩],
    .append (.router ⟨1⟩) [⟨2⟩]]

def postHierarchy : Hierarchy :=
  { nodes := #[⟨bareRoute userPattern, .root ⟨0⟩, [⟨1⟩]⟩, ⟨bareRoute postPattern, .below ⟨0⟩, []⟩,
      ⟨bareRoute userPostPattern, .root ⟨1⟩, []⟩]
    routers := #[⟨⟨"/app", true⟩, [⟨0⟩]⟩, ⟨⟨"/app", true⟩, [⟨2⟩]⟩] }

theorem build_postEdits : build postEdits = postHierarchy := by
  have user : Pattern.parse "/users/\x7buser\x7d?\x7btab\x7d" = .ok userPattern :=
    Pattern.parse_eq_ok_iff.mpr (by decide)
  have post : Pattern.parse "posts/\x7bpost\x7d/?\x7bpage\x7d" = .ok postPattern :=
    Pattern.parse_eq_ok_iff.mpr (by decide)
  have both : Pattern.parse
      "/users/\x7buser\x7d/posts/\x7bpost\x7d/?\x7btab\x7d&\x7bpage\x7d" = .ok userPostPattern :=
    Pattern.parse_eq_ok_iff.mpr (by decide)
  simp only [build, editAll, postEdits, List.foldl_cons, List.foldl_nil, Hierarchy.edit,
    Route.ofSpec, RouteSpec.pattern, user, post, both]
  rfl

def postFlattening : postHierarchy.Flattening ⟨0⟩ ⟨1⟩ ⟨2⟩ where
  upper := bareRoute userPattern
  lower := bareRoute postPattern
  whole := bareRoute userPostPattern
  first := userPattern
  second := postPattern
  joined := userPostPattern
  hasOuter := ⟨rfl, isBare_bareRoute _, rfl, rfl⟩
  hasInner := ⟨rfl, isBare_bareRoute _, rfl, rfl⟩
  hasFlat := ⟨rfl, isBare_bareRoute _, rfl, rfl⟩
  joins := ⟨rfl, rfl, rfl⟩
  slashMustMatch_eq := rfl

/-- A request for the second page of a post. -/
def postArrival : Arrival :=
  ⟨.null, .query (.ofText "page=2&other=1"), true⟩

def postArguments : Entries :=
  [("user", .int 7), ("post", .text "a/b"), ("page", .int 2), ("tab", .text "new")]

theorem nesting_agrees_with_flattening_post :
    ∃ first upper lower,
      ((build postEdits).select ⟨2⟩ postArrival ["users", "7", "posts", "3"]).result =
        .ok (.chain first []) ∧
      ((build postEdits).select ⟨0⟩ postArrival ["users", "7", "posts", "3"]).result =
        .ok (.chain upper [lower]) ∧
      first.values = ["7", "3"] ∧ first.Unites upper lower ∧
      (build postEdits).link ⟨0⟩ ⟨1⟩ postArguments = (build postEdits).link ⟨1⟩ ⟨2⟩ postArguments ∧
      (build postEdits).link ⟨1⟩ ⟨2⟩ postArguments =
        .ok "/app/users/7/posts/a%2Fb/?tab=new&page=2" := by
  have flattening : (build postEdits).Flattening ⟨0⟩ ⟨1⟩ ⟨2⟩ := build_postEdits ▸ postFlattening
  have flattens := nesting_agrees_with_flattening flattening
  have linked : (build postEdits).link ⟨1⟩ ⟨2⟩ postArguments =
      .ok "/app/users/7/posts/a%2Fb/?tab=new&page=2" := by
    rw [build_postEdits]
    rfl
  have matched : ∃ first others,
      ((build postEdits).select ⟨2⟩ postArrival ["users", "7", "posts", "3"]).result =
        .ok (.chain first others) ∧ first.values = ["7", "3"] := by
    rw [build_postEdits]
    exact ⟨_, _, rfl, rfl⟩
  obtain ⟨first, others, one, values⟩ := matched
  obtain ⟨upper, lower, two, _, _⟩ := (flattens.selected_iff _ _).mp ⟨first, others, one⟩
  obtain ⟨rfl, unites⟩ := flattens.unites _ _ _ _ _ _ one two
  refine ⟨first, upper, lower, one, two, values, unites, ?_, linked⟩
  apply flattens.link_eq <;> rw [build_postEdits]
  · rfl
  · exact List.mem_singleton_self _
  · exact List.mem_singleton_self _

end Hierarchy

end RouteTree
