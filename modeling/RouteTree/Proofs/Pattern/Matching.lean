import RouteTree.Proofs.Pattern.Filling

/-! # A match spells a block of segments

A pattern matches when its places spell a block at the head of the segments: literals stand where
they are expected, and what stands in the other places is captured in order. A block is spelled in
one way only, so filling in the captured values gives the block back.
-/

namespace RouteTree

namespace Segment

variable {expected : List Segment} {block values : List String}

/-- What stands at the places of parameters. -/
def captured (expected : List Segment) (block : List String) : List String :=
  (expected.zip block).filterMap fun (place, text) => place.name?.map fun _ => text

/-- The expected places spell a block of segments and capture some of them. -/
structure Spells (expected : List Segment) (block values : List String) : Prop where
  length_eq : block.length = expected.length
  /-- Every literal stands at its place. -/
  literals : ∀ (index : Nat) (text : String),
    expected[index]? = some (literal text) → block[index]? = some text
  /-- The values are what stands at the places of parameters. -/
  values_eq : values = captured expected block

theorem spells_nil_iff : Spells [] block values ↔ block = [] ∧ values = [] := by
  constructor
  · intro spells
    obtain rfl := List.eq_nil_of_length_eq_zero spells.length_eq
    exact ⟨rfl, spells.values_eq⟩
  · rintro ⟨rfl, rfl⟩
    exact ⟨rfl, by simp, rfl⟩

/-- A literal spells itself and captures nothing. -/
theorem spells_literal_iff {text actual : String} :
    Spells (.literal text :: expected) (actual :: block) values ↔
      text = actual ∧ Spells expected block values := by
  constructor
  · intro spells
    have here := spells.literals 0 text rfl
    refine ⟨(Option.some.inj here).symm, by simpa using spells.length_eq, ?_, spells.values_eq⟩
    intro index other found
    exact spells.literals (index + 1) other found
  · rintro ⟨rfl, spells⟩
    refine ⟨by simpa using spells.length_eq, ?_, spells.values_eq⟩
    intro index other found
    cases index with
    | zero => simpa using found
    | succ index => exact spells.literals index other found

/-- A parameter spells any segment and captures it. -/
theorem spells_parameter_iff {name actual : String} :
    Spells (.parameter name :: expected) (actual :: block) values ↔
      ∃ others, values = actual :: others ∧ Spells expected block others := by
  constructor
  · intro spells
    refine ⟨captured expected block, spells.values_eq, by simpa using spells.length_eq, ?_, rfl⟩
    intro index other found
    exact spells.literals (index + 1) other found
  · rintro ⟨others, rfl, spells⟩
    refine ⟨by simpa using spells.length_eq, ?_, by rw [spells.values_eq]; rfl⟩
    intro index other found
    cases index with
    | zero => simp at found
    | succ index => exact spells.literals index other found

/-- A list of places matches exactly the segments whose head it spells. -/
theorem captures?_eq_some_iff {segments : List String} :
    captures? expected segments = some values ↔
      Spells expected (segments.take expected.length) values := by
  induction expected generalizing segments values with
  | nil => simp [captures?, spells_nil_iff, eq_comm]
  | cons place expected ih =>
    cases segments with
    | nil =>
      simp only [captures?, reduceCtorEq, List.take_nil, false_iff]
      intro spells
      exact absurd spells.length_eq (by simp)
    | cons actual rest =>
      rw [List.length_cons, List.take_succ_cons]
      cases place with
      | literal text =>
        rw [captures?, spells_literal_iff, ← ih]
        by_cases same : text = actual <;> simp [same]
      | parameter name =>
        rw [captures?, spells_parameter_iff, Option.map_eq_some_iff]
        simp only [ih, eq_comm, and_comm]

namespace Spells

/-- Every parameter captures one value. -/
theorem length_values (spells : Spells expected block values) :
    values.length = (expected.filterMap name?).length := by
  induction expected generalizing block values with
  | nil => rw [(spells_nil_iff.mp spells).2]; rfl
  | cons place expected ih =>
    cases block with
    | nil => exact absurd spells.length_eq (by simp)
    | cons actual block =>
      cases place with
      | literal text => exact ih (spells_literal_iff.mp spells).2
      | parameter name =>
        obtain ⟨others, rfl, onward⟩ := spells_parameter_iff.mp spells
        exact congrArg (· + 1) (ih onward)

/-- Some value is captured for every parameter. -/
theorem exists_captured (spells : Spells expected block values) {name : String}
    (member : name ∈ expected.filterMap name?) :
    ∃ value, (name, value) ∈ (expected.filterMap name?).zip values := by
  obtain ⟨index, bound, rfl⟩ := List.mem_iff_getElem.mp member
  have captured : index < values.length := spells.length_values ▸ bound
  have inside : index < ((expected.filterMap name?).zip values).length := by
    rw [List.length_zip]
    omega
  exact ⟨values[index], List.mem_iff_getElem.mpr ⟨index, inside, List.getElem_zip⟩⟩

/-- Filling in the captured values gives the block back. -/
theorem eq_filled (spells : Spells expected block values) {arguments : Entries}
    (given : ∀ entry ∈ (expected.filterMap name?).zip values,
      arguments.valueOf entry.1 = .text entry.2) : block = expected.map (filled arguments) := by
  induction expected generalizing block values with
  | nil => exact (spells_nil_iff.mp spells).1
  | cons place expected ih =>
    cases block with
    | nil => exact absurd spells.length_eq (by simp)
    | cons actual block =>
      cases place with
      | literal text =>
        obtain ⟨rfl, onward⟩ := spells_literal_iff.mp spells
        exact congrArg (text :: ·) (ih onward given)
      | parameter name =>
        obtain ⟨others, rfl, onward⟩ := spells_parameter_iff.mp spells
        have here : arguments.valueOf name = .text actual := given (name, actual) List.mem_cons_self
        have rest := ih onward fun entry member => given entry (List.mem_cons_of_mem _ member)
        rw [List.map_cons, ← rest, filled, here]
        rfl

end Spells

end Segment

namespace Route

variable {route : Route} {segments values : List String}

/-- The places in the path of a route, none without a pattern. -/
def expected (route : Route) : List Segment :=
  route.pattern.elim [] Pattern.segments

theorem captures?_eq_some_iff :
    route.captures? segments = some values ↔
      Segment.Spells route.expected (segments.take route.expected.length) values := by
  rw [captures?, expected]
  cases route.pattern with
  | none => simp [Segment.spells_nil_iff, eq_comm]
  | some pattern => exact Segment.captures?_eq_some_iff

theorem leftover_eq_drop (route : Route) (segments : List String) :
    route.leftover segments = segments.drop route.expected.length := by
  rw [leftover, expected]
  cases route.pattern <;> rfl

theorem filledSegments_eq_map (route : Route) (arguments : Entries) :
    route.filledSegments arguments = route.expected.map (Segment.filled arguments) := by
  rw [filledSegments, expected]
  cases route.pattern <;> rfl

end Route

end RouteTree
