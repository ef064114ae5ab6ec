import RouteTree.Proofs.Pattern.Reading

/-! # The grammar of patterns

    pattern = [ "/" ] segment ( "/" segment )* [ "/" ] [ "?" search ]
    segment = literal | "{" name "}"
    search  = "{" name "}" ( "&" "{" name "}" )*

Each nonterminal is a relation between a text and the names that the text holds, in order. Every
derivation is the written form of some pattern, so that reading accepts exactly the derivable texts
whose names are all different.
-/

namespace RouteTree.Pattern

/-- A character that may be missing. -/
inductive IsOptional (mark : Char) : List Char → Prop
  | absent : IsOptional mark []
  | present : IsOptional mark [mark]

inductive IsSegment : List Char → List String → Prop
  | literal {text : String} (proper : IsLiteralText text) : IsSegment text.toList []
  | parameter {name : String} (proper : IsName name) :
      IsSegment ('\x7b' :: (name.toList ++ ['\x7d'])) [name]

inductive IsPath : List Char → List String → Prop
  | last {text : List Char} {names : List String} (segment : IsSegment text names) :
      IsPath text names
  | slash {text rest : List Char} {names others : List String} (segment : IsSegment text names)
      (onward : IsPath rest others) : IsPath (text ++ '/' :: rest) (names ++ others)

inductive IsSearch : List Char → List String → Prop
  | last {name : String} (proper : IsName name) :
      IsSearch ('\x7b' :: (name.toList ++ ['\x7d'])) [name]
  | ampersand {name : String} {rest : List Char} {others : List String} (proper : IsName name)
      (onward : IsSearch rest others) :
      IsSearch ('\x7b' :: (name.toList ++ '\x7d' :: '&' :: rest)) (name :: others)

inductive IsTail : List Char → List String → Prop
  | absent : IsTail [] []
  | present {text : List Char} {names : List String} (search : IsSearch text names) :
      IsTail ('?' :: text) names

inductive IsPattern : List Char → List String → Prop
  | pattern {leading path trailing tail : List Char} {parameters searchNames : List String}
      (leadingSlash : IsOptional '/' leading) (segments : IsPath path parameters)
      (trailingSlash : IsOptional '/' trailing) (search : IsTail tail searchNames) :
      IsPattern (leading ++ path ++ trailing ++ tail) (parameters ++ searchNames)

/-- A text of the grammar that holds no name twice. -/
def Derivable (text : String) : Prop :=
  ∃ names, IsPattern text.toList names ∧ names.Nodup

/-! ## Derivations are written forms -/

theorem isOptional_iff {mark : Char} {text : List Char} :
    IsOptional mark text ↔ ∃ present : Bool, text = if present then [mark] else [] := by
  constructor
  · rintro (_ | _)
    · exact ⟨false, rfl⟩
    · exact ⟨true, rfl⟩
  · rintro ⟨_ | _, rfl⟩
    · exact .absent
    · exact .present

theorem isSegment_iff {text : List Char} {names : List String} :
    IsSegment text names ↔ ∃ segment : Segment, segment.IsProper ∧
      text = segment.text.toList ∧ names = segment.name?.toList := by
  constructor
  · rintro (proper | proper)
    · exact ⟨.literal _, proper, rfl, rfl⟩
    · exact ⟨.parameter _, proper, (toList_braced _).symm, rfl⟩
  · rintro ⟨segment, proper, rfl, rfl⟩
    cases segment with
    | literal text => exact .literal proper
    | parameter name =>
      rw [Segment.text, toList_braced]
      exact .parameter proper

theorem joined_singleton (segment : Segment) : joined [segment] false = segment.text.toList := by
  simp [joined]

theorem isPath_iff {text : List Char} {names : List String} :
    IsPath text names ↔ ∃ segments : List Segment, segments ≠ [] ∧
      (∀ segment ∈ segments, segment.IsProper) ∧ text = joined segments false ∧
        names = segments.filterMap Segment.name? := by
  constructor
  · intro path
    induction path with
    | last derived =>
      obtain ⟨segment, proper, rfl, rfl⟩ := isSegment_iff.mp derived
      exact ⟨[segment], by simp, by simpa using proper, (joined_singleton segment).symm,
        by simp [filterMap_name?_cons]⟩
    | slash derived _ ih =>
      obtain ⟨segment, proper, rfl, rfl⟩ := isSegment_iff.mp derived
      obtain ⟨segments, present, propers, rfl, rfl⟩ := ih
      obtain ⟨next, others, rfl⟩ := List.exists_cons_of_ne_nil present
      exact ⟨segment :: next :: others, by simp, List.forall_mem_cons.mpr ⟨proper, propers⟩,
        (joined_cons_cons ..).symm, (filterMap_name?_cons ..).symm⟩
  · rintro ⟨segments, present, propers, rfl, rfl⟩
    induction segments with
    | nil => contradiction
    | cons segment rest ih =>
      obtain ⟨proper, propers⟩ := List.forall_mem_cons.mp propers
      have derived : IsSegment segment.text.toList segment.name?.toList :=
        isSegment_iff.mpr ⟨segment, proper, rfl, rfl⟩
      rw [filterMap_name?_cons]
      cases rest with
      | nil =>
        rw [joined_singleton, List.filterMap_nil, List.append_nil]
        exact .last derived
      | cons next others =>
        rw [joined_cons_cons]
        exact .slash derived (ih (by simp) propers)

theorem isSearch_iff {text : List Char} {names : List String} :
    IsSearch text names ↔ names ≠ [] ∧ (∀ name ∈ names, IsName name) ∧
      text = joinedNames names := by
  constructor
  · intro search
    induction search with
    | last proper => exact ⟨by simp, by simpa using proper, (joinedNames_singleton _).symm⟩
    | ampersand proper _ ih =>
      obtain ⟨present, propers, rfl⟩ := ih
      obtain ⟨next, others, rfl⟩ := List.exists_cons_of_ne_nil present
      exact ⟨by simp, List.forall_mem_cons.mpr ⟨proper, propers⟩, (joinedNames_cons_cons ..).symm⟩
  · rintro ⟨present, propers, rfl⟩
    induction names with
    | nil => contradiction
    | cons name rest ih =>
      obtain ⟨proper, propers⟩ := List.forall_mem_cons.mp propers
      cases rest with
      | nil =>
        rw [joinedNames_singleton]
        exact .last proper
      | cons next others =>
        rw [joinedNames_cons_cons]
        exact .ampersand proper (ih (by simp) propers)

theorem isTail_iff {text : List Char} {names : List String} :
    IsTail text names ↔ (∀ name ∈ names, IsName name) ∧
      text = if names = [] then [] else '?' :: joinedNames names := by
  constructor
  · rintro (_ | search)
    · exact ⟨by simp, rfl⟩
    · obtain ⟨present, propers, rfl⟩ := isSearch_iff.mp search
      exact ⟨propers, (if_neg present).symm⟩
  · rintro ⟨propers, rfl⟩
    split
    · next empty =>
      subst empty
      exact .absent
    · next present => exact .present (isSearch_iff.mpr ⟨present, propers, rfl⟩)

theorem joined_append_slash (segments : List Segment) (trailingSlash : Bool) :
    joined segments false ++ (if trailingSlash then ['/'] else []) =
      joined segments trailingSlash := by
  simp [joined]

/-- The derivable texts are the written forms of patterns with proper places. -/
theorem isPattern_iff {text : List Char} {names : List String} :
    IsPattern text names ↔ ∃ pattern : Pattern, pattern.segments ≠ [] ∧
      pattern.parameters = pattern.segments.filterMap Segment.name? ∧
        (∀ segment ∈ pattern.places, segment.IsProper) ∧ pattern.text.toList = text ∧
          names = pattern.places.filterMap Segment.name? := by
  constructor
  · rintro ⟨leading, path, trailing, tail⟩
    obtain ⟨leadingSlash, rfl⟩ := isOptional_iff.mp leading
    obtain ⟨segments, present, propers, rfl, rfl⟩ := isPath_iff.mp path
    obtain ⟨trailingSlash, rfl⟩ := isOptional_iff.mp trailing
    obtain ⟨named, rfl⟩ := isTail_iff.mp tail
    refine ⟨⟨segments, segments.filterMap Segment.name?, _, leadingSlash, trailingSlash⟩, present,
      rfl, forall_mem_places_iff.mpr ⟨propers, named⟩, ?_, ?_⟩
    · rw [toList_text, List.append_assoc _ (joined segments false), joined_append_slash]
    · rw [places, List.filterMap_append, filterMap_name?_parameter]
  · rintro ⟨pattern, present, _, propers, rfl, rfl⟩
    obtain ⟨inPath, named⟩ := forall_mem_places_iff.mp propers
    rw [toList_text, ← joined_append_slash, ← List.append_assoc, places, List.filterMap_append,
      filterMap_name?_parameter]
    exact ⟨isOptional_iff.mpr ⟨pattern.leadingSlash, rfl⟩,
      isPath_iff.mpr ⟨pattern.segments, present, inPath, rfl, rfl⟩,
      isOptional_iff.mpr ⟨pattern.trailingSlash, rfl⟩, isTail_iff.mpr ⟨named, rfl⟩⟩

theorem derivable_iff {text : String} :
    Derivable text ↔ ∃ pattern : Pattern, pattern.WellFormed ∧ pattern.text = text := by
  constructor
  · rintro ⟨names, derived, distinct⟩
    obtain ⟨pattern, present, parameters_eq, propers, written, rfl⟩ := isPattern_iff.mp derived
    exact ⟨pattern, wellFormed_iff.mpr ⟨present, parameters_eq, propers, distinct⟩,
      String.toList_inj.mp written⟩
  · rintro ⟨pattern, proper, rfl⟩
    obtain ⟨present, parameters_eq, propers, distinct⟩ := wellFormed_iff.mp proper
    exact ⟨_, isPattern_iff.mpr ⟨pattern, present, parameters_eq, propers, rfl, rfl⟩, distinct⟩

/-- Reading is the inverse of writing on well-formed patterns, accepts exactly the texts of the
grammar, and refuses every other text with a syntax error about that text. -/
theorem parse_inverts_text_on_grammar (text : String) :
    (∀ pattern, parse text = .ok pattern ↔ pattern.WellFormed ∧ pattern.text = text) ∧
      ((∃ pattern, parse text = .ok pattern) ↔ Derivable text) ∧
        (¬ Derivable text → ∃ reason, parse text = .error ⟨reason, text⟩) := by
  have accepted : (∃ pattern, parse text = .ok pattern) ↔ Derivable text := by
    simp only [parse_eq_ok_iff, derivable_iff]
  refine ⟨fun pattern => parse_eq_ok_iff, accepted, fun refused => ?_⟩
  cases outcome : read text.toList with
  | error reason => exact ⟨reason, by simp [parse, outcome, Except.mapError]⟩
  | ok pattern =>
    exact (refused (accepted.mp ⟨pattern, by simp [parse, outcome, Except.mapError]⟩)).elim

end RouteTree.Pattern
