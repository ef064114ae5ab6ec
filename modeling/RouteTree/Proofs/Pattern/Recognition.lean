import RouteTree.Proofs.Pattern.Matching
import RouteTree.Proofs.Pattern.Reading

/-! # A pattern matches what it renders

Matching and rendering undo each other: what a pattern renders is matched again, and rendering what
was captured gives back the segments that were matched. The second half holds because no name stands
twice in a pattern, neither in its path nor in its search, so that every captured value is found
under its own name and no search name finds one of them.
-/

namespace RouteTree

namespace Entries

variable {names values : List String}

/-- One text for each name. -/
def ofTexts (names values : List String) : Entries :=
  (names.zip values).map fun (name, value) => (name, .text value)

theorem valueOf_ofTexts_cons (name other : String) (names : List String) (value : String)
    (values : List String) :
    (ofTexts (name :: names) (value :: values)).valueOf other =
      if other = name then .text value else (ofTexts names values).valueOf other := by
  by_cases same : other = name
  · simp [ofTexts, valueOf, same]
  · simp [ofTexts, valueOf, List.lookup_cons, beq_eq_false_iff_ne.mpr same, same]

theorem valueOf_ofTexts_of_notMem {name : String} (absent : name ∉ names) :
    (ofTexts names values).valueOf name = .null := by
  induction names generalizing values with
  | nil => rfl
  | cons first names ih =>
    cases values with
    | nil => rfl
    | cons value values =>
      simp only [List.mem_cons, not_or] at absent
      rw [valueOf_ofTexts_cons, if_neg absent.1, ih absent.2]

/-- If the names differ, each has the text that it was paired with. -/
theorem valueOf_ofTexts (distinct : names.Nodup) :
    ∀ entry ∈ names.zip values, (ofTexts names values).valueOf entry.1 = .text entry.2 := by
  induction names generalizing values with
  | nil => simp
  | cons name names ih =>
    cases values with
    | nil => simp
    | cons value values =>
      obtain ⟨fresh, distinct⟩ := List.nodup_cons.mp distinct
      intro entry member
      rw [valueOf_ofTexts_cons]
      rcases List.mem_cons.mp member with rfl | later
      · rw [if_pos rfl]
      · have other : entry.1 ≠ name := by
          rintro rfl
          exact fresh (List.of_mem_zip later).1
        rw [if_neg other, ih distinct entry later]

end Entries

namespace Pattern

variable {pattern : Pattern} {arguments : Entries} {rendered : Rendered}
  {segments values : List String}

/-- What a pattern renders is matched, whatever follows it, and the texts of the arguments are
captured. -/
theorem captures?_of_render (proper : pattern.WellFormed)
    (success : pattern.render arguments = .ok rendered) (rest : List String) :
    pattern.captures? (rendered.segments ++ rest) =
      some (pattern.parameters.map fun name => (arguments.valueOf name).plain) := by
  obtain ⟨_, rfl⟩ := (render_eq_ok_iff proper).mp success
  exact captures?_filledSegments proper arguments rest

/-- No search name of a pattern has a value among texts for its parameters. -/
theorem filledFields_ofTexts (proper : pattern.WellFormed) (values : List String) :
    pattern.filledFields (.ofTexts pattern.parameters values) = [] := by
  refine List.flatMap_eq_nil_iff.mpr fun name searched => ?_
  have absent : name ∉ pattern.parameters := fun member =>
    (List.nodup_append.mp proper.distinct).2.2 name member name searched rfl
  rw [queryFields, Entries.valueOf_ofTexts_of_notMem absent]
  rfl

/-- What a pattern captures renders to the segments that it matched. -/
theorem render_of_captures? (proper : pattern.WellFormed)
    (matched : pattern.captures? segments = some values) :
    values.length = pattern.parameters.length ∧
      pattern.segments.length ≤ segments.length ∧
      pattern.render (.ofTexts pattern.parameters values) =
        .ok ⟨segments.take pattern.segments.length, []⟩ := by
  have spells := Segment.captures?_eq_some_iff.mp matched
  have distinct : pattern.parameters.Nodup := (List.nodup_append.mp proper.distinct).1
  have texts : ∀ entry ∈ pattern.parameters.zip values,
      (Entries.ofTexts pattern.parameters values).valueOf entry.1 = .text entry.2 :=
    Entries.valueOf_ofTexts distinct
  have given : ∀ name ∈ pattern.parameters,
      ((Entries.ofTexts pattern.parameters values).valueOf name).isNull = false := by
    intro name member
    rw [proper.parameters_eq] at member texts ⊢
    obtain ⟨value, captured⟩ := spells.exists_captured member
    rw [texts _ captured]
    rfl
  have block : segments.take pattern.segments.length =
      pattern.filledSegments (.ofTexts pattern.parameters values) := by
    refine spells.eq_filled ?_
    rwa [← proper.parameters_eq]
  refine ⟨?_, ?_, (render_eq_ok_iff proper).mpr ⟨given, ?_⟩⟩
  · rw [proper.parameters_eq]
    exact spells.length_values
  · rw [← spells.length_eq]
    exact List.length_take_le' _ segments
  · rw [block, filledFields_ofTexts proper]

/-- A compiled pattern matches what it renders and captures the texts it was rendered from; what it
captures is one text for each parameter and renders to the segments that were matched; and it
matches nothing exactly when no texts for its parameters render to the head of the segments. -/
theorem captures?_inverts_render {text : String} (compiled : parse text = .ok pattern) :
    (∀ arguments rendered, pattern.render arguments = .ok rendered → ∀ rest,
      pattern.captures? (rendered.segments ++ rest) =
        some (pattern.parameters.map fun name => (arguments.valueOf name).plain)) ∧
    (∀ segments values, pattern.captures? segments = some values →
      values.length = pattern.parameters.length ∧
        pattern.segments.length ≤ segments.length ∧
        pattern.render (.ofTexts pattern.parameters values) =
          .ok ⟨segments.take pattern.segments.length, []⟩) ∧
    ∀ segments, pattern.captures? segments = none ↔
      ¬ ∃ values rendered, values.length = pattern.parameters.length ∧
        pattern.render (.ofTexts pattern.parameters values) = .ok rendered ∧
          rendered.segments <+: segments := by
  have proper := (parse_eq_ok_iff.mp compiled).1
  refine ⟨fun arguments rendered success => captures?_of_render proper success,
    fun segments values => render_of_captures? proper, fun segments => ?_⟩
  constructor
  · rintro unmatched ⟨values, rendered, _, success, rest, rfl⟩
    rw [captures?_of_render proper success rest] at unmatched
    contradiction
  · intro unrendered
    cases matched : pattern.captures? segments with
    | none => rfl
    | some values =>
      obtain ⟨same, _, success⟩ := render_of_captures? proper matched
      exact (unrendered ⟨values, _, same, success, List.take_prefix _ segments⟩).elim

/-- A pattern with a literal between two parameters. -/
def reviewPattern : Pattern :=
  ⟨[.parameter "user", .literal "reviews", .parameter "id"], ["user", "id"], ["page"], true, false⟩

theorem parse_review :
    parse "/\x7buser\x7d/reviews/\x7bid\x7d?\x7bpage\x7d" = .ok reviewPattern :=
  parse_eq_ok_iff.mpr (by decide)

theorem captures?_inverts_render_review :
    parse "/\x7buser\x7d/reviews/\x7bid\x7d?\x7bpage\x7d" = .ok reviewPattern ∧
      reviewPattern.render [("page", .int 2), ("id", .int 7), ("user", .text "a/b")] =
        .ok ⟨["a/b", "reviews", "7"], [("page", "2")]⟩ ∧
      reviewPattern.captures? ["a/b", "reviews", "7", "edit"] = some ["a/b", "7"] ∧
      reviewPattern.render (.ofTexts ["user", "id"] ["a/b", "7"]) =
        .ok ⟨["a/b", "reviews", "7"], []⟩ ∧
      reviewPattern.captures? ["a/b", "reviews"] = none ∧
      ¬ ∃ values rendered, values.length = reviewPattern.parameters.length ∧
        reviewPattern.render (.ofTexts reviewPattern.parameters values) = .ok rendered ∧
          rendered.segments <+: ["a/b", "reviews"] := by
  obtain ⟨forward, backward, absent⟩ := captures?_inverts_render parse_review
  have rendered : reviewPattern.render [("page", .int 2), ("id", .int 7), ("user", .text "a/b")] =
      .ok ⟨["a/b", "reviews", "7"], [("page", "2")]⟩ := rfl
  have matched := forward _ _ rendered ["edit"]
  have short : reviewPattern.captures? ["a/b", "reviews"] = none := rfl
  exact ⟨parse_review, rendered, matched, (backward _ _ matched).2.2, short,
    (absent _).mp short⟩

end Pattern

end RouteTree
