import RouteTree.Proofs.Link.Failure
import RouteTree.Proofs.Link.Shape

/-! # Blank values in a link

Only null counts as a missing value. A value whose text has no character is written into a link as
any other value is, with a slash before it and, if something follows, one after it. Nothing stands
between the slashes, and what is read from the link has no segment for the parameter. If no segment
follows, the slash before it ends the path, whatever the patterns declare.

Nothing else is lost: the literals of a pattern are not empty, and every other text is read back.
-/

namespace RouteTree

/-- Of the places in the path of a pattern, those that are filled in with nothing are parameters
with blank values. -/
theorem Pattern.countP_filledSegments {pattern : Pattern} (proper : pattern.WellFormed)
    (arguments : Entries) :
    (pattern.filledSegments arguments).countP (· = "") =
      pattern.pathNames.countP fun name => (arguments.valueOf name).plain = "" := by
  rw [filledSegments, pathNames, List.countP_map, List.countP_filterMap]
  apply List.countP_congr
  intro segment listed
  cases segment with
  | literal text => simp [Segment.filled, Segment.name?, (proper.literals text listed).1]
  | parameter name => rfl

namespace Hierarchy

variable {hierarchy : Hierarchy} {id : RouteId} {arguments : Entries}

/-- The parameters in the paths of a lineage whose values have no character. -/
def blankParameters (hierarchy : Hierarchy) (id : RouteId) (arguments : Entries) : List String :=
  (hierarchy.pathParameters id).filter fun name => (arguments.valueOf name).plain = ""

/-- A link has an empty segment for every blank parameter, and no other one. -/
theorem countP_filledLink (constructed : hierarchy.Constructed) :
    (hierarchy.filledLink id arguments).segments.countP (· = "") =
      (hierarchy.blankParameters id arguments).length := by
  rw [blankParameters, ← List.countP_eq_length_filter, ← flatMap_pathNames, filledLink,
    ← flatMap_filledSegments, List.countP_flatMap, List.countP_flatMap]
  congr 1
  apply List.map_congr_left
  intro pattern listed
  exact Pattern.countP_filledSegments (constructed.patterns_wellFormed pattern listed) arguments

/-- The segments that are found in a link and the blank parameters are together as many as the
lineage expects. -/
theorem length_found (constructed : hierarchy.Constructed) :
    (hierarchy.filledLink id arguments).found.segments.length +
      (hierarchy.blankParameters id arguments).length = hierarchy.segmentCount id := by
  have all := List.length_eq_countP_add_countP (· = "")
    (l := (hierarchy.filledLink id arguments).segments)
  rw [length_filledLink, countP_filledLink constructed, List.countP_eq_length_filter] at all
  rw [all, Nat.add_comm, Link.found]
  simp

/-- Without blank parameters, all of a link is found. -/
theorem found_of_blankParameters_eq_nil (constructed : hierarchy.Constructed)
    (none : hierarchy.blankParameters id arguments = []) :
    (hierarchy.filledLink id arguments).found = hierarchy.filledLink id arguments := by
  apply Link.found_eq_self
  have count := @countP_filledLink hierarchy id arguments constructed
  rw [none, List.length_nil, List.countP_eq_zero] at count
  simpa using count

/-- What is read from a link that was made of rendered patterns. -/
structure LosesBlanks (hierarchy : Hierarchy) (id : RouteId) (arguments : Entries)
    (rendered : List Rendered) (address : Address) : Prop where
  /-- The rendered segments are read in their order, without the empty ones. -/
  segments_eq : address.segments = (rendered.flatMap Rendered.segments).filter (· ≠ "")
  /-- Every blank parameter has lost its segment, and no other place of the lineage has. -/
  length_eq : address.segments.length + (hierarchy.blankParameters id arguments).length =
    hierarchy.segmentCount id
  /-- A slash at the end is the declared one or stands before an empty last segment. -/
  trailingSlash_iff : address.trailingSlash = true ↔ address.segments ≠ [] ∧
    (hierarchy.endsWithSlash id = true ∨
      (rendered.flatMap Rendered.segments).getLast? = some "")
  /-- The address is what the lineage declares exactly when no parameter is blank. -/
  declared_iff : address.segments.length = hierarchy.segmentCount id ∧
      address.trailingSlash = hierarchy.endsWithSlash id ↔
    hierarchy.blankParameters id arguments = []

/-- Every link is read back, and what it has lost are the segments of its blank parameters. -/
theorem links_lose_blank_parameters {edits : List Edit} {router : RouterId} {config : Config}
    {text : String} (configured : (build edits).config? router = some config)
    (reads : config.ReadsLinks) (linked : (build edits).link router id arguments = .ok text) :
    ∃ rendered address,
      ((build edits).patterns id).mapM (fun pattern => pattern.render arguments) = .ok rendered ∧
      Address.parse? config text = some address ∧
      (build edits).LosesBlanks id arguments rendered address := by
  have constructed := constructed_build edits
  obtain ⟨_, given, rfl⟩ := (link_eq_ok_iff constructed configured).mp linked
  obtain ⟨rendered, renders, same⟩ := given.mapM_render constructed
  have read := Link.parse?_text_found config reads.noQuery reads.noFragment
    ((build edits).filledLink id arguments)
  rw [Link.map_segmentOf_of_decodes reads.decodes] at read
  have count := @length_found _ id arguments constructed
  refine ⟨rendered, _, renders, read, ?_, count, ?_, ?_⟩
  · rw [← same]
    rfl
  · rw [← same]
    simp [Link.found, filledLink, endsWithSlash, and_comm]
  · constructor
    · rintro ⟨whole, _⟩
      apply List.length_eq_zero_iff.mp
      dsimp only at whole
      omega
    · intro none
      refine ⟨by simpa [none] using count, ?_⟩
      rw [found_of_blankParameters_eq_nil constructed none]
      exact trailingSlash_filledAddress constructed

/-! ### An item of no kind -/

def plainItemArguments : Entries :=
  [("kind", .text ""), ("id", .int 7)]

/-- The link to the item has three places, and two segments are read from it. -/
theorem links_lose_blank_parameters_item :
    (build shopEdits).config? ⟨0⟩ = some shopConfig ∧ shopConfig.ReadsLinks ∧
      (build shopEdits).link ⟨0⟩ ⟨1⟩ plainItemArguments = .ok "/shop/find//7/" ∧
      (build shopEdits).blankParameters ⟨1⟩ plainItemArguments = ["kind"] ∧
      ∃ rendered address,
        ((build shopEdits).patterns ⟨1⟩).mapM
          (fun pattern => pattern.render plainItemArguments) = .ok rendered ∧
        Address.parse? shopConfig "/shop/find//7/" = some address ∧
        (build shopEdits).LosesBlanks ⟨1⟩ plainItemArguments rendered address := by
  have configured : (build shopEdits).config? ⟨0⟩ = some shopConfig := by
    rw [build_shopEdits]
    rfl
  have linked : (build shopEdits).link ⟨0⟩ ⟨1⟩ plainItemArguments = .ok "/shop/find//7/" := by
    rw [build_shopEdits]
    rfl
  have blank : (build shopEdits).blankParameters ⟨1⟩ plainItemArguments = ["kind"] := by
    rw [build_shopEdits]
    decide
  exact ⟨configured, shopConfig_readsLinks, linked, blank,
    links_lose_blank_parameters configured shopConfig_readsLinks linked⟩

/-! ### A profile of nobody -/

def profileEdits : List Edit :=
  [.router "" true,
    .route ⟨some "/users/\x7bid\x7d", none, none, none, .null, true⟩,
    .append (.router ⟨0⟩) [⟨0⟩]]

def profileRoute : Route :=
  ⟨some ⟨[.literal "users", .parameter "id"], ["id"], [], true, false⟩, none, none, none, .null,
    true⟩

def profileHierarchy : Hierarchy :=
  { nodes := #[⟨profileRoute, .root ⟨0⟩, []⟩], routers := #[⟨.unmounted, [⟨0⟩]⟩] }

theorem build_profileEdits : build profileEdits = profileHierarchy := by
  have profile : Pattern.parse "/users/\x7bid\x7d" =
      .ok ⟨[.literal "users", .parameter "id"], ["id"], [], true, false⟩ :=
    Pattern.parse_eq_ok_iff.mpr (by decide)
  simp only [build, editAll, profileEdits, List.foldl_cons, List.foldl_nil, edit, Route.ofSpec,
    RouteSpec.pattern, profile]
  rfl

/-- The link to the profile of a blank name leads to another place: a segment is lost, and a slash
that no pattern declares ends what is left. -/
theorem blank_parameters_are_lost :
    ¬ ∀ (edits : List Edit) (router : RouterId) (config : Config) (id : RouteId)
      (arguments : Entries) (text : String),
      (build edits).config? router = some config → config.ReadsLinks →
      (build edits).link router id arguments = .ok text →
      ∃ address, Address.parse? config text = some address ∧
        address.segments.length = (build edits).segmentCount id ∧
        address.trailingSlash = (build edits).endsWithSlash id := by
  intro kept
  have configured : (build profileEdits).config? ⟨0⟩ = some .unmounted := by
    rw [build_profileEdits]
    rfl
  have linked : (build profileEdits).link ⟨0⟩ ⟨0⟩ [("id", .text "")] = .ok "/users/" := by
    rw [build_profileEdits]
    rfl
  obtain ⟨address, parsed, length, _⟩ :=
    kept profileEdits ⟨0⟩ .unmounted ⟨0⟩ _ _ configured ⟨rfl, by decide, by decide⟩ linked
  have read : Address.parse? .unmounted "/users/" = some ⟨["users"], true, .ofText ""⟩ := by
    decide
  obtain rfl := Option.some.inj (read.symm.trans parsed)
  rw [build_profileEdits] at length
  exact absurd length (by decide)

end Hierarchy

end RouteTree
