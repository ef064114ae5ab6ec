import RouteTree.Proofs.Pattern.Recognition
import RouteTree.Proofs.Query.Grouping
import RouteTree.Proofs.Selection.Conservation

/-! # Default extraction

Without an extractor, the parameters of a match are set one after another in a dictionary: each
parameter of the path to the segment captured for it, then each search name that the source has
values for to the first of them. `Pattern.assign?` carries this out with the two steps that could
fail: pairing the parameters with the captured values, and reading a first value. Neither fails for
a pattern that was read, and no later entry takes the place of an earlier one, because no name
stands twice in such a pattern and a match captures one value for every parameter.
-/

namespace RouteTree

/-- Pair two lists item by item; lists of different lengths do not pair up. -/
def pairUp? {α β : Type} : List α → List β → Option (List (α × β))
  | [], [] => some []
  | first :: rest, second :: others => (pairUp? rest others).map ((first, second) :: ·)
  | _, _ => none

theorem pairUp?_eq_some {α β : Type} {left : List α} {right : List β}
    (same : left.length = right.length) : pairUp? left right = some (left.zip right) := by
  induction left generalizing right with
  | nil =>
    obtain rfl := List.eq_nil_of_length_eq_zero same.symm
    rfl
  | cons first rest ih =>
    cases right with
    | nil => contradiction
    | cons second others => rw [pairUp?, ih (Nat.succ.inj same), List.zip_cons_cons]; rfl

namespace Entries

/-- Of entries with different keys, each is found under its own. -/
theorem lookup_of_mem {entries : Entries} (distinct : (entries.map Prod.fst).Nodup) {key : String}
    {value : Value} (member : (key, value) ∈ entries) : entries.lookup key = some value := by
  induction entries with
  | nil => contradiction
  | cons head rest ih =>
    obtain ⟨fresh, distinct⟩ := List.nodup_cons.mp distinct
    rcases List.mem_cons.mp member with rfl | later
    · exact List.lookup_cons_self
    · have other : key ≠ head.1 := by
        rintro rfl
        exact fresh (List.mem_map.mpr ⟨_, later, rfl⟩)
      rw [List.lookup_cons, beq_eq_false_iff_ne.mpr other]
      exact ih distinct later

end Entries

/-- What stands at the place of a parameter is paired with its name. -/
theorem Segment.Spells.exists_mem_zip {expected : List Segment} {block values : List String}
    (spells : Spells expected block values) {index : Nat} {name : String}
    (place : expected[index]? = some (.parameter name)) :
    ∃ text, block[index]? = some text ∧ (name, text) ∈ (expected.filterMap name?).zip values := by
  induction expected generalizing block values index with
  | nil => simp at place
  | cons first expected ih =>
    cases block with
    | nil => exact absurd spells.length_eq (by simp)
    | cons actual block =>
      cases first with
      | literal text =>
        cases index with
        | zero => simp at place
        | succ index => exact ih (spells_literal_iff.mp spells).2 place
      | parameter other =>
        obtain ⟨others, rfl, onward⟩ := spells_parameter_iff.mp spells
        cases index with
        | zero =>
          obtain rfl : other = name := by simpa using place
          exact ⟨actual, rfl, List.mem_cons_self⟩
        | succ index =>
          obtain ⟨text, here, member⟩ := ih onward place
          exact ⟨text, here, List.mem_cons_of_mem _ member⟩

namespace Pattern

variable {pattern : Pattern} {segments values : List String} {search : Search}

/-- The search names that a source has values for. -/
def presentNames (pattern : Pattern) (search : Search) : List String :=
  pattern.searchNames.filter fun name => !(search.getAll name).isEmpty

/-- All values of these names. -/
def foundValues (pattern : Pattern) (search : Search) : List (String × List String) :=
  (pattern.presentNames search).map fun name => (name, search.getAll name)

/-- Set the parameters of the path to the captured values, then every name that was found to its
first value. There is no result when the captured values do not pair up with the parameters, and
none when a name was found without a value. -/
def assign? (pattern : Pattern) (values : List String) (found : List (String × List String)) :
    Option Entries := do
  let captured ← pairUp? pattern.parameters values
  let searched ← found.mapM fun (name, texts) => texts.head?.map fun first => (name, first)
  return .ofList ((captured ++ searched).map fun (name, text) => (name, .text text))

/-- What a match gives without an extractor. -/
structure Extracts (pattern : Pattern) (segments : List String) (search : Search)
    (params : Entries) (groups : List Query.Group) : Prop where
  /-- The keys are the parameters of the path and then the search names with values. -/
  keys_eq : params.map Prod.fst = pattern.parameters ++ pattern.presentNames search
  keys_nodup : (params.map Prod.fst).Nodup
  /-- A parameter of the path is the segment at its place. -/
  captured : ∀ (index : Nat) (name : String), pattern.segments[index]? = some (.parameter name) →
    ∃ text, segments[index]? = some text ∧ params.lookup name = some (.text text)
  /-- A search name with values is the first of them. -/
  searched : ∀ name ∈ pattern.searchNames, ∀ first others, search.getAll name = first :: others →
    params.lookup name = some (.text first)
  /-- All values of these names are kept beside the parameters. -/
  groups_eq : groups.map (fun group => (group.name, group.values)) = pattern.foundValues search

/-! ## Both steps succeed -/

theorem searchGroup?_eq (search : Search) (name : String) :
    Route.searchGroup? search name = Query.Group.ofValues? name (search.getAll name) := by
  rw [Route.searchGroup?]
  cases search.getAll name <;> rfl

/-- The groups of a match are the names that were found, with all their values. -/
theorem groups_eq_foundValues (pattern : Pattern) (search : Search) :
    (pattern.searchNames.filterMap (Route.searchGroup? search)).map
        (fun group => (group.name, group.values)) = pattern.foundValues search := by
  simp only [searchGroup?_eq]
  exact Query.Group.map_filterMap_ofValues? pattern.searchNames search.getAll

/-- Every group has a first value to be read. -/
theorem mapM_first_of_groups (groups : List Query.Group) :
    (groups.map fun group => (group.name, group.values)).mapM
        (fun (name, texts) => texts.head?.map fun first => (name, first)) =
      some (groups.map fun group => (group.name, group.first)) := by
  induction groups with
  | nil => rfl
  | cons group rest ih => rw [List.map_cons, List.mapM_cons, ih]; rfl

/-- The parameters of a match before they are set: those of the path and those of the search. -/
def assignments (pattern : Pattern) (values : List String) (search : Search) :
    List (String × Value) :=
  (pattern.parameters.zip values).map (fun (name, value) => (name, .text value)) ++
    (pattern.searchNames.filterMap (Route.searchGroup? search)).map fun group =>
      (group.name, .text group.first)

theorem length_values_of_captures? (proper : pattern.WellFormed)
    (matched : pattern.captures? segments = some values) :
    pattern.parameters.length = values.length := by
  rw [proper.parameters_eq]
  exact (Segment.captures?_eq_some_iff.mp matched).length_values.symm

/-- The values of a match pair up with the parameters, and every name that is found has a first
value. -/
theorem assign?_of_captures? (proper : pattern.WellFormed)
    (matched : pattern.captures? segments = some values) (search : Search) :
    pattern.assign? values (pattern.foundValues search) =
      some (.ofList (pattern.assignments values search)) := by
  have paired := pairUp?_eq_some (length_values_of_captures? proper matched)
  simp only [assign?, paired, ← groups_eq_foundValues, mapM_first_of_groups, assignments,
    Option.bind_eq_bind, Option.bind_some, List.map_append, List.map_map, Function.comp_def]
  rfl

/-! ## No entry takes the place of another -/

theorem keys_assignments (proper : pattern.WellFormed)
    (matched : pattern.captures? segments = some values) (search : Search) :
    (pattern.assignments values search).map Prod.fst =
      pattern.parameters ++ pattern.presentNames search := by
  have names := congrArg (List.map Prod.fst) (groups_eq_foundValues pattern search)
  have paired := List.map_fst_zip (length_values_of_captures? proper matched).le
  simp only [foundValues, List.map_map, Function.comp_def, List.map_id'] at names
  simp only [assignments, List.map_append, List.map_map, Function.comp_def, names]
  exact congrArg (· ++ pattern.presentNames search) paired

theorem nodup_keys_assignments (proper : pattern.WellFormed)
    (matched : pattern.captures? segments = some values) (search : Search) :
    ((pattern.assignments values search).map Prod.fst).Nodup := by
  rw [keys_assignments proper matched]
  exact proper.distinct.sublist (List.Sublist.append_left List.filter_sublist _)

/-- Setting the parameters of a match one after another keeps all of them. -/
theorem extracts_assignments (proper : pattern.WellFormed)
    (matched : pattern.captures? segments = some values) (search : Search) :
    pattern.Extracts segments search (.ofList (pattern.assignments values search))
      (pattern.searchNames.filterMap (Route.searchGroup? search)) := by
  have distinct := nodup_keys_assignments proper matched search
  have spells := Segment.captures?_eq_some_iff.mp matched
  rw [Entries.ofList_of_nodup distinct]
  refine ⟨keys_assignments proper matched search, distinct, ?_, ?_, groups_eq_foundValues _ _⟩
  · intro index name place
    obtain ⟨text, here, member⟩ := spells.exists_mem_zip place
    rw [← proper.parameters_eq] at member
    rw [List.getElem?_take] at here
    split_ifs at here
    refine ⟨text, here, Entries.lookup_of_mem distinct ?_⟩
    exact List.mem_append_left _ (List.mem_map.mpr ⟨_, member, rfl⟩)
  · intro name declared first others found
    refine Entries.lookup_of_mem distinct (List.mem_append_right _ (List.mem_map.mpr ?_))
    refine ⟨⟨name, first, others⟩, List.mem_filterMap.mpr ⟨name, declared, ?_⟩, rfl⟩
    rw [searchGroup?_eq, found]
    rfl

end Pattern

/-! ## Routes without an extractor -/

namespace Route

variable {route : Route} {pattern : Pattern}

/-- A route that is constructed from a text has the pattern that is read from it. -/
theorem exists_pattern_of_ofSpec {spec : RouteSpec} {text : String}
    (constructed : ofSpec spec = .ok route) (written : spec.path = some text) :
    ∃ pattern, Pattern.parse text = .ok pattern ∧ route.pattern = some pattern := by
  have read := (ofSpec_eq_ok_iff.mp constructed).1
  rw [RouteSpec.pattern, written] at read
  cases parsed : Pattern.parse text with
  | error error => simp [parsed, Except.mapError, Except.map] at read
  | ok pattern =>
    refine ⟨pattern, rfl, ?_⟩
    simpa [parsed, Except.mapError, Except.map, eq_comm] using read

theorem extractor_of_ofSpec {spec : RouteSpec} (constructed : ofSpec spec = .ok route) :
    route.extractor = spec.extractor := by
  rw [(ofSpec_eq_ok_iff.mp constructed).2.2]

/-- Without an extractor, the parameters of a match are those of its pattern. -/
theorem defaultParams_eq (present : route.pattern = some pattern) (values : List String)
    (search : Search) :
    route.defaultParams values (route.searchGroups search) =
      .dict (.ofList (pattern.assignments values search)) := by
  rw [defaultParams, searchGroups, present]
  rfl

theorem extract_of_plain (present : route.pattern = some pattern) (plain : route.extractor = none)
    (id : RouteId) (arrival : Arrival) (values : List String) :
    route.extract id arrival values =
      pure (some (.dict (.ofList (pattern.assignments values arrival.search)))) := by
  rw [extract, plain, ← defaultParams_eq present]

end Route

/-- A selection carries what a pattern gives without an extractor, for the segments that were left
when its route was reached. -/
def Selection.IsDefault (selection : Selection) (pattern : Pattern) (arrival : Arrival)
    (segments : List String) : Prop :=
  ∃ offered params, offered <:+ segments ∧ pattern.captures? offered = some selection.values ∧
    selection.params = .dict params ∧
      pattern.Extracts offered arrival.search params selection.groups

namespace Hierarchy

variable {hierarchy : Hierarchy} {arrival : Arrival} {start : RouteId} {segments : List String}
  {first selection : Selection} {others : List Selection}

/-- Every selection of a walk was made for the segments that were left at its route. -/
theorem Walk.exists_admits (walk : Walk hierarchy arrival start segments first others) :
    ∀ selection ∈ first :: others, ∃ node offered values params,
      hierarchy.node? selection.route = some node ∧ offered <:+ segments ∧
        node.route.Admits arrival offered values params ∧
        selection = node.route.selection selection.route arrival values params selection.kind := by
  induction walk with
  | @index id node segments values params found admits =>
    intro selection member
    obtain rfl := List.mem_singleton.mp member
    exact ⟨node, segments, values, params, found, List.suffix_rfl, admits, rfl⟩
  | @error id node segments values params found admits =>
    intro selection member
    obtain rfl := List.mem_singleton.mp member
    exact ⟨node, segments, values, params, found, List.suffix_rfl, admits, rfl⟩
  | @inner id child node segments values params next rest found admits _ _ _ ih =>
    intro selection member
    rcases List.mem_cons.mp member with rfl | later
    · exact ⟨node, segments, values, params, found, List.suffix_rfl, admits, rfl⟩
    · obtain ⟨last, offered, values', params', found', ends, admits', same⟩ := ih selection later
      rw [node.route.leftover_eq_drop] at ends
      exact ⟨last, offered, values', params', found', ends.trans (List.drop_suffix _ _), admits',
        same⟩

/-- A route that admits a request without an extractor is selected with what its pattern gives. -/
theorem isDefault_of_admits {route : Route} {pattern : Pattern} {offered values : List String}
    {params : Params} (present : route.pattern = some pattern) (proper : pattern.WellFormed)
    (plain : route.extractor = none) (ends : offered <:+ segments)
    (admits : route.Admits arrival offered values params) (id : RouteId) (kind : MatchKind) :
    (route.selection id arrival values params kind).IsDefault pattern arrival segments := by
  have matched : pattern.captures? offered = some values := by
    have captured := admits.captured
    rwa [Route.captures?, present] at captured
  have given : params = .dict (.ofList (pattern.assignments values arrival.search)) := by
    have extracted := admits.extracted
    rw [Route.extraction, plain, Route.defaultParams_eq present] at extracted
    exact (Option.some.inj (Except.ok.inj extracted)).symm
  have groups : route.searchGroups arrival.search =
      pattern.searchNames.filterMap (Route.searchGroup? arrival.search) := by
    rw [Route.searchGroups, present]
  refine ⟨offered, _, ends, matched, given, ?_⟩
  rw [Route.selection, groups]
  exact pattern.extracts_assignments proper matched arrival.search

/-- A route that was constructed from a text without an extractor gives parameters to every match,
whatever the source of search values holds: both steps of setting them succeed, every parameter of
the path keeps the segment at its place, and every search name with values has the first of them.
Every selection of the route carries what it gives. -/
theorem default_extraction_succeeds {spec : RouteSpec} {route : Route} {text : String}
    (constructed : Route.ofSpec spec = .ok route) (written : spec.path = some text)
    (plain : spec.extractor = none) :
    ∃ pattern, Pattern.parse text = .ok pattern ∧ route.pattern = some pattern ∧
      (∀ segments values, pattern.captures? segments = some values → ∀ id arrival,
        ∃ params, pattern.assign? values (pattern.foundValues arrival.search) = some params ∧
          route.extract id arrival values = pure (some (.dict params)) ∧
          pattern.Extracts segments arrival.search params (route.searchGroups arrival.search)) ∧
      ∀ edits start arrival segments first others,
        ((build edits).select start arrival segments).result = .ok (.chain first others) →
          ∀ selection ∈ first :: others, (build edits).route? selection.route = some route →
            selection.IsDefault pattern arrival segments := by
  obtain ⟨pattern, parsed, present⟩ := Route.exists_pattern_of_ofSpec constructed written
  have proper : pattern.WellFormed := (Pattern.parse_eq_ok_iff.mp parsed).1
  have noExtractor : route.extractor = none :=
    (Route.extractor_of_ofSpec constructed).trans plain
  refine ⟨pattern, parsed, present, ?_, ?_⟩
  · intro segments values matched id arrival
    refine ⟨_, Pattern.assign?_of_captures? proper matched arrival.search,
      Route.extract_of_plain present noExtractor id arrival values, ?_⟩
    rw [Route.searchGroups, present]
    exact pattern.extracts_assignments proper matched arrival.search
  · intro edits start arrival segments first others selected selection member placed
    obtain ⟨node, offered, values, params, found, ends, admits, same⟩ :=
      ((forest_build edits).walk_of_select selected).exists_admits selection member
    obtain rfl := Option.some.inj ((route?_of_node? found).symm.trans placed)
    rw [same]
    exact isDefault_of_admits present proper noExtractor ends admits _ _

/-! ### A query that names what the path names -/

def reviewSpec : RouteSpec :=
  ⟨some "/\x7buser\x7d/reviews/\x7bid\x7d?\x7bpage\x7d", none, none, none, .null, true⟩

def reviewRoute : Route :=
  ⟨some Pattern.reviewPattern, none, none, none, .null, true⟩

/-- A request with several values for every name. -/
def crowdedArrival : Arrival :=
  ⟨.null, .lookup fun _ => ["2", "3"], false⟩

theorem default_extraction_succeeds_review :
    (Route.ofSpec reviewSpec = .ok reviewRoute ∧ reviewSpec.path.isSome ∧
        reviewSpec.extractor = none) ∧
      Pattern.reviewPattern.captures? ["a/b", "reviews", "7", "edit"] = some ["a/b", "7"] ∧
      Pattern.reviewPattern.assign? ["a/b", "7"]
          (Pattern.reviewPattern.foundValues crowdedArrival.search) =
        some [("user", .text "a/b"), ("id", .text "7"), ("page", .text "2")] ∧
      reviewRoute.extract ⟨0⟩ crowdedArrival ["a/b", "7"] =
        pure (some (.dict [("user", .text "a/b"), ("id", .text "7"), ("page", .text "2")])) ∧
      Pattern.reviewPattern.Extracts ["a/b", "reviews", "7", "edit"] crowdedArrival.search
        [("user", .text "a/b"), ("id", .text "7"), ("page", .text "2")]
        (reviewRoute.searchGroups crowdedArrival.search) := by
  have constructed : Route.ofSpec reviewSpec = .ok reviewRoute := by
    simp only [Route.ofSpec, RouteSpec.pattern, reviewSpec, Pattern.parse_review]
    rfl
  obtain ⟨pattern, _, present, succeeds, _⟩ := default_extraction_succeeds constructed rfl rfl
  obtain rfl : Pattern.reviewPattern = pattern := Option.some.inj present
  have matched : Pattern.reviewPattern.captures? ["a/b", "reviews", "7", "edit"] =
      some ["a/b", "7"] := rfl
  obtain ⟨params, assigned, extracted, extracts⟩ := succeeds _ _ matched ⟨0⟩ crowdedArrival
  obtain rfl : [("user", .text "a/b"), ("id", .text "7"), ("page", .text "2")] = params :=
    Option.some.inj assigned
  exact ⟨⟨constructed, rfl, rfl⟩, matched, assigned, extracted, extracts⟩

end Hierarchy

end RouteTree
