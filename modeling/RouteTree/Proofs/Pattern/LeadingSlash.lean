import RouteTree.Proofs.Hierarchy.Constructed

/-! # The slash at the start of a pattern

A pattern may be written with a slash at its start or without one. The reader keeps the slash in a
flag and reads what follows as if nothing stood before it, and no function of a route looks at the
flag except those that show the pattern. Two patterns that differ by this slash alone are therefore
the same pattern once the flag is cleared.
-/

namespace RouteTree

namespace Pattern

variable {pattern other : Pattern}

/-- The same pattern without a slash at its start. -/
def unslashed (pattern : Pattern) : Pattern :=
  { pattern with leadingSlash := false }

/-- Two patterns whose written forms differ, if at all, by one slash at the start. -/
def Reslashed (pattern other : Pattern) : Prop :=
  other.text = pattern.text ∨ other.text = "/" ++ pattern.text ∨ pattern.text = "/" ++ other.text

theorem WellFormed.unslashed (proper : pattern.WellFormed) : pattern.unslashed.WellFormed :=
  ⟨proper.segments_ne_nil, proper.literals, proper.names, proper.parameters_eq, proper.distinct⟩

theorem append_text_unslashed (pattern : Pattern) :
    (if pattern.leadingSlash then "/" else "") ++ pattern.unslashed.text = pattern.text := by
  obtain ⟨segments, parameters, searchNames, leadingSlash, trailingSlash⟩ := pattern
  cases trailingSlash <;> simp [text, pathText, unslashed, String.append_assoc]

/-- Well-formed patterns with the same written form are the same. -/
theorem WellFormed.eq_of_text (proper : pattern.WellFormed) (proper' : other.WellFormed)
    (same : other.text = pattern.text) : other = pattern := by
  have read : parse pattern.text = .ok pattern := parse_eq_ok_iff.mpr ⟨proper, rfl⟩
  have read' : parse pattern.text = .ok other := parse_eq_ok_iff.mpr ⟨proper', same⟩
  exact Except.ok.inj (read'.symm.trans read)

/-- The flag of a well-formed pattern is set just when its written form starts with a slash. -/
theorem WellFormed.leadingSlash_eq (proper : pattern.WellFormed) :
    pattern.leadingSlash = (pattern.text.toList.head? == some '/') :=
  (read_eq_ok_iff.mp (read_of_wellFormed proper)).2.1

/-- Reading a pattern behind one more slash sets the flag and changes nothing else. -/
theorem WellFormed.unslashed_eq_of_text (proper : pattern.WellFormed)
    (proper' : other.WellFormed) (longer : other.text = "/" ++ pattern.text) :
    other.unslashed = pattern := by
  have slash : other.leadingSlash = true := by
    rw [proper'.leadingSlash_eq, longer]
    simp
  have rest : other.unslashed.text = pattern.text := by
    have written := other.append_text_unslashed
    rw [slash, if_pos rfl, longer] at written
    exact String.append_right_inj "/" |>.mp written
  exact proper.eq_of_text proper'.unslashed rest

/-- Patterns that differ by one slash at the start are one pattern without it. -/
theorem Reslashed.unslashed_eq (reslashed : Reslashed pattern other) (proper : pattern.WellFormed)
    (proper' : other.WellFormed) : other.unslashed = pattern.unslashed := by
  rcases reslashed with same | longer | shorter
  · rw [proper.eq_of_text proper' same]
  · rw [← proper.unslashed_eq_of_text proper' longer]
    rfl
  · rw [← proper'.unslashed_eq_of_text proper shorter]
    rfl

end Pattern

namespace Route

/-- The same route with a pattern that has no slash at its start. -/
def unslashed (route : Route) : Route :=
  { route with pattern := route.pattern.map Pattern.unslashed }

/-- Two routes that differ, if at all, by one slash at the start of their patterns. -/
structure Reslashed (before after : Route) : Prop where
  pattern : Option.Rel Pattern.Reslashed before.pattern after.pattern
  guard : after.guard = before.guard
  extractor : after.extractor = before.extractor
  handler : after.handler = before.handler
  outlet : after.outlet = before.outlet
  slashMustMatch : after.slashMustMatch = before.slashMustMatch

theorem Reslashed.unslashed_eq {before after : Route} (reslashed : Reslashed before after)
    (proper : ∀ pattern ∈ before.pattern, pattern.WellFormed)
    (proper' : ∀ pattern ∈ after.pattern, pattern.WellFormed) :
    after.unslashed = before.unslashed := by
  obtain ⟨pattern, guard, extractor, handler, outlet, slashMustMatch⟩ := before
  obtain ⟨pattern', guard', extractor', handler', outlet', slashMustMatch'⟩ := after
  obtain ⟨patterns, rfl, rfl, rfl, rfl, rfl⟩ := reslashed
  cases patterns with
  | none => rfl
  | some same =>
    have plain := same.unslashed_eq (proper _ rfl) (proper' _ rfl)
    simp only [unslashed, Option.map_some, plain]

/-! ## What the flag does not change -/

theorem take?_unslashed (route : Route) : route.unslashed.take? = route.take? := by
  obtain ⟨_ | pattern, _⟩ := route <;> rfl

theorem searchGroups_unslashed (route : Route) :
    route.unslashed.searchGroups = route.searchGroups := by
  obtain ⟨_ | pattern, _⟩ := route <;> rfl

theorem defaultParams_unslashed (route : Route) :
    route.unslashed.defaultParams = route.defaultParams := by
  obtain ⟨_ | pattern, _⟩ := route <;> rfl

end Route

end RouteTree
