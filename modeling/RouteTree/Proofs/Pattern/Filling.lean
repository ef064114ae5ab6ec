import RouteTree.Pattern.Render
import RouteTree.Route
import Mathlib.Data.List.Nodup

/-! # Filling in and matching

A pattern that is filled in matches the segments that result, captures the texts of the values it
was filled in with, and leaves over whatever follows. Without an extractor the parameters of the
match are then known beforehand: `Route.filledParams`.
-/

namespace RouteTree

namespace Entries

theorem insert_of_notMem {entries : Entries} {entry : String × Value}
    (absent : entry.1 ∉ entries.map Prod.fst) : entries.insert entry = entries ++ [entry] := by
  induction entries with
  | nil => rfl
  | cons head rest ih =>
    simp only [List.map_cons, List.mem_cons, not_or] at absent
    rw [insert, if_neg (Ne.symm absent.1), ih absent.2, List.cons_append]

/-- Entries with different keys are kept as they are. -/
theorem ofList_of_nodup {entries : List (String × Value)}
    (distinct : (entries.map Prod.fst).Nodup) : ofList entries = entries := by
  have general : ∀ before : Entries, ((before ++ entries).map Prod.fst).Nodup →
      entries.foldl insert before = before ++ entries := by
    intro before
    induction entries generalizing before with
    | nil => simp
    | cons entry rest ih =>
      intro distinct
      have absent : entry.1 ∉ before.map Prod.fst := by
        rw [List.map_append, List.map_cons] at distinct
        exact fun member => (List.nodup_append.mp distinct).2.2 _ member _ (by simp) rfl
      rw [List.append_cons] at distinct ⊢
      rw [List.foldl_cons, insert_of_notMem absent]
      exact ih (List.nodup_append.mp (by simpa using distinct)).2.1.of_cons _ distinct
  exact general [] distinct

end Entries

/-- A computation of two steps succeeds when both steps do. -/
theorem bind_eq_ok_iff {ε α β : Type} {first : Except ε α} {next : α → Except ε β} {result : β} :
    first >>= next = .ok result ↔ ∃ value, first = .ok value ∧ next value = .ok result := by
  cases first <;> simp [bind, Except.bind]

namespace Segment

variable {arguments : Entries}

/-- The text of a segment that was filled in. -/
def filled (arguments : Entries) : Segment → String
  | .literal text => text
  | .parameter name => (arguments.valueOf name).plain

/-- A segment is filled in exactly when its parameter is given, if it has one. -/
theorem render_eq_ok_iff {segment : Segment} {text : String} :
    segment.render arguments = .ok text ↔
      (∀ name ∈ segment.name?, (arguments.valueOf name).isNull = false) ∧
        text = segment.filled arguments := by
  rw [eq_comm (a := text)]
  cases segment with
  | literal content => simp [render, filled, name?]
  | parameter name =>
    cases null : (arguments.valueOf name).isNull <;> simp [render, filled, name?, null]

/-- Segments are filled in exactly when every parameter among them is given. -/
theorem mapM_render_eq_ok_iff {segments : List Segment} {texts : List String} :
    segments.mapM (render arguments) = .ok texts ↔
      (∀ name ∈ segments.filterMap name?, (arguments.valueOf name).isNull = false) ∧
        texts = segments.map (filled arguments) := by
  induction segments generalizing texts with
  | nil => exact ⟨fun same => ⟨by simp, (Except.ok.inj same).symm⟩, fun same => same.2 ▸ rfl⟩
  | cons segment rest ih =>
    have given : (∀ name ∈ (segment :: rest).filterMap name?,
          (arguments.valueOf name).isNull = false) ↔
        (∀ name ∈ segment.name?, (arguments.valueOf name).isNull = false) ∧
          ∀ name ∈ rest.filterMap name?, (arguments.valueOf name).isNull = false := by
      rw [List.filterMap_cons]
      cases segment.name? <;> simp
    simp only [List.mapM_cons, bind_eq_ok_iff, render_eq_ok_iff, ih, given, List.map_cons]
    constructor
    · rintro ⟨_, ⟨here, rfl⟩, _, ⟨onward, rfl⟩, same⟩
      exact ⟨⟨here, onward⟩, (Except.ok.inj same).symm⟩
    · rintro ⟨⟨here, onward⟩, rfl⟩
      exact ⟨_, ⟨here, rfl⟩, _, ⟨onward, rfl⟩, rfl⟩

end Segment

namespace Pattern

variable {pattern : Pattern} {arguments : Entries}

/-- The arguments give every parameter of the path a value that has a text. -/
def IsFilledBy (pattern : Pattern) (arguments : Entries) : Prop :=
  ∀ name ∈ pattern.parameters,
    (arguments.valueOf name).isNull = false ∧ (arguments.valueOf name).plain ≠ ""

/-- The segments of a pattern that was filled in. -/
def filledSegments (pattern : Pattern) (arguments : Entries) : List String :=
  pattern.segments.map (Segment.filled arguments)

/-- The query fields of a pattern that was filled in. -/
def filledFields (pattern : Pattern) (arguments : Entries) : List (String × String) :=
  pattern.searchNames.flatMap (queryFields arguments)

/-- What a match of the filled-in pattern gives: every parameter of the path with the text of its
value, and every search name that has a text with the first one. -/
def filledEntries (pattern : Pattern) (arguments : Entries) : Entries :=
  pattern.parameters.map (fun name => (name, .text (arguments.valueOf name).plain)) ++
    pattern.searchNames.filterMap fun name =>
      (arguments.valueOf name).plainItems.head?.map fun first => (name, .text first)

/-! ## Filling in -/

/-- A pattern is filled in exactly when every parameter of its path is given. -/
theorem render_eq_ok_iff (proper : pattern.WellFormed) {rendered : Rendered} :
    pattern.render arguments = .ok rendered ↔
      (∀ name ∈ pattern.parameters, (arguments.valueOf name).isNull = false) ∧
        rendered = ⟨pattern.filledSegments arguments, pattern.filledFields arguments⟩ := by
  rw [render, proper.parameters_eq]
  simp only [bind_eq_ok_iff, Segment.mapM_render_eq_ok_iff]
  constructor
  · rintro ⟨_, ⟨given, rfl⟩, same⟩
    exact ⟨given, (Except.ok.inj same).symm⟩
  · rintro ⟨given, rfl⟩
    exact ⟨_, ⟨given, rfl⟩, rfl⟩

/-- No segment of a filled-in pattern is empty. -/
theorem ne_empty_of_mem_filledSegments (proper : pattern.WellFormed)
    (filled : pattern.IsFilledBy arguments) :
    ∀ text ∈ pattern.filledSegments arguments, text ≠ "" := by
  intro text member
  obtain ⟨segment, listed, rfl⟩ := List.mem_map.mp member
  cases segment with
  | literal text => exact (proper.literals text listed).1
  | parameter name =>
    refine (filled name ?_).2
    rw [proper.parameters_eq]
    exact List.mem_filterMap.mpr ⟨_, listed, rfl⟩

theorem filledSegments_ne_nil (proper : pattern.WellFormed) (arguments : Entries) :
    pattern.filledSegments arguments ≠ [] := by
  simpa [filledSegments] using proper.segments_ne_nil

/-! ## Matching -/

/-- A filled-in pattern captures the texts of its values from the segments that start with it. -/
theorem captures?_filledSegments (proper : pattern.WellFormed) (arguments : Entries)
    (rest : List String) :
    pattern.captures? (pattern.filledSegments arguments ++ rest) =
      some (pattern.parameters.map fun name => (arguments.valueOf name).plain) := by
  rw [proper.parameters_eq, captures?, filledSegments]
  induction pattern.segments with
  | nil => rfl
  | cons segment others ih =>
    cases segment with
    | literal text =>
      rw [List.map_cons, List.cons_append, Segment.captures?, Segment.filled, if_pos rfl, ih]
      rfl
    | parameter name =>
      rw [List.map_cons, List.cons_append, Segment.captures?, ih]
      rfl

theorem leftover_filledSegments (pattern : Pattern) (arguments : Entries) (rest : List String) :
    pattern.leftover (pattern.filledSegments arguments ++ rest) = rest := by
  simp [leftover, filledSegments]

end Pattern

namespace Route

variable {route : Route}

/-- The segments that a route contributes to a link. -/
def filledSegments (route : Route) (arguments : Entries) : List String :=
  route.pattern.elim [] fun pattern => pattern.filledSegments arguments

/-- What a match of the filled-in route gives without an extractor. -/
def filledParams (route : Route) (arguments : Entries) : Params :=
  .dict (route.pattern.elim [] fun pattern => pattern.filledEntries arguments)

/-- The texts of the values in the path of a route that was filled in. -/
def filledValues (route : Route) (arguments : Entries) : List String :=
  route.pattern.elim [] fun pattern =>
    pattern.parameters.map fun name => (arguments.valueOf name).plain

theorem captures?_filledSegments (proper : ∀ pattern ∈ route.pattern, pattern.WellFormed)
    (arguments : Entries) (rest : List String) :
    route.captures? (route.filledSegments arguments ++ rest) =
      some (route.filledValues arguments) := by
  rw [captures?, filledSegments, filledValues]
  cases present : route.pattern with
  | none => rfl
  | some pattern =>
    exact Pattern.captures?_filledSegments (proper pattern present) arguments rest

theorem leftover_filledSegments (route : Route) (arguments : Entries) (rest : List String) :
    route.leftover (route.filledSegments arguments ++ rest) = rest := by
  rw [leftover, filledSegments]
  cases route.pattern with
  | none => rfl
  | some pattern => exact pattern.leftover_filledSegments arguments rest

/-- The parameters of a match are those that the route was filled in with, if the search values of
its names are the texts of the arguments. -/
theorem defaultParams_of_filled (proper : ∀ pattern ∈ route.pattern, pattern.WellFormed)
    {arguments : Entries} {search : Search}
    (found : ∀ pattern ∈ route.pattern, ∀ name ∈ pattern.searchNames,
      search.getAll name = (arguments.valueOf name).plainItems) :
    route.defaultParams (route.filledValues arguments) (route.searchGroups search) =
      route.filledParams arguments := by
  rw [defaultParams, filledValues, searchGroups, filledParams]
  cases present : route.pattern with
  | none => rfl
  | some pattern =>
    have wellFormed := proper pattern present
    have names : (pattern.filledEntries arguments).map Prod.fst =
        pattern.parameters ++ pattern.searchNames.filter fun name =>
          (arguments.valueOf name).plainItems.head?.isSome := by
      rw [Pattern.filledEntries, List.map_append, List.map_map, List.map_filterMap,
        ← List.filterMap_eq_filter]
      congr 1
      · exact List.map_id _
      · refine List.filterMap_congr fun name _ => ?_
        cases texts : (arguments.valueOf name).plainItems <;> simp [Option.guard, texts]
    have distinct : ((pattern.filledEntries arguments).map Prod.fst).Nodup := by
      rw [names]
      exact wellFormed.distinct.sublist (List.Sublist.append_left List.filter_sublist _)
    refine congrArg Params.dict ((congrArg Entries.ofList ?_).trans
      (Entries.ofList_of_nodup distinct))
    simp only [Pattern.filledEntries, Option.elim_some]
    rw [← List.map_prod_left_eq_zip, List.map_map, List.map_filterMap]
    congr 1
    refine List.filterMap_congr fun name member => ?_
    rw [searchGroup?, found pattern present name member]
    cases (arguments.valueOf name).plainItems <;> rfl

end Route

end RouteTree
