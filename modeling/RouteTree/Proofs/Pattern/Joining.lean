import RouteTree.Proofs.Pattern.Matching

/-! # Two patterns in one

A pattern can hold the segments and the search names of two patterns, one after the other. It then
matches what the first one matches if the second one matches what is left over, and it captures what
both capture.
-/

namespace RouteTree

/-- The first places are matched before the others. -/
theorem Segment.captures?_append (first second : List Segment) (segments : List String) :
    captures? (first ++ second) segments =
      (captures? first segments).bind fun values =>
        (captures? second (segments.drop first.length)).map (values ++ ·) := by
  induction first generalizing segments with
  | nil => simp [captures?]
  | cons expected first ih =>
    cases segments with
    | nil => rfl
    | cons actual rest =>
      cases expected with
      | literal text =>
        simp only [List.cons_append, captures?, List.length_cons, List.drop_succ_cons, ih]
        split_ifs <;> rfl
      | parameter name =>
        simp only [List.cons_append, captures?, List.length_cons, List.drop_succ_cons, ih]
        cases captures? first rest with
        | none => rfl
        | some values => simp [Function.comp_def]

namespace Pattern

variable {joined first second : Pattern} {segments values : List String}

/-- A pattern with a written form matches no empty list. -/
theorem WellFormed.ne_nil_of_captures? {pattern : Pattern} (proper : pattern.WellFormed)
    (captured : pattern.captures? segments = some values) : segments ≠ [] := by
  rintro rfl
  rw [captures?] at captured
  cases places : pattern.segments with
  | nil => exact proper.segments_ne_nil places
  | cons expected rest =>
    rw [places] at captured
    cases captured

/-- A pattern says what two patterns say one after the other. -/
structure Joins (joined first second : Pattern) : Prop where
  segments_eq : joined.segments = first.segments ++ second.segments
  searchNames_eq : joined.searchNames = first.searchNames ++ second.searchNames
  trailingSlash_eq : joined.trailingSlash = second.trailingSlash

namespace Joins

variable (joins : joined.Joins first second)
include joins

theorem parameters_eq (proper : joined.WellFormed) (proper₁ : first.WellFormed)
    (proper₂ : second.WellFormed) :
    joined.parameters = first.parameters ++ second.parameters := by
  rw [proper.parameters_eq, proper₁.parameters_eq, proper₂.parameters_eq, joins.segments_eq,
    List.filterMap_append]

theorem leftover_eq (segments : List String) :
    joined.leftover segments = second.leftover (first.leftover segments) := by
  rw [leftover, leftover, leftover, joins.segments_eq, List.length_append, List.drop_drop]

/-- The joined pattern captures what the first one captures and then what the second one captures of
the segments left over. -/
theorem captures?_eq_some_iff :
    joined.captures? segments = some values ↔
      ∃ before after, first.captures? segments = some before ∧
        second.captures? (first.leftover segments) = some after ∧ values = before ++ after := by
  rw [captures?, joins.segments_eq, Segment.captures?_append, Option.bind_eq_some_iff]
  simp only [Option.map_eq_some_iff, eq_comm (a := values)]
  constructor
  · rintro ⟨before, captured, after, onward, same⟩
    exact ⟨before, after, captured, onward, same⟩
  · rintro ⟨before, after, captured, onward, same⟩
    exact ⟨before, captured, after, onward, same⟩

end Joins

end Pattern

end RouteTree
