import RouteTree.Proofs.Link.Decoding
import RouteTree.Proofs.Selection.Ancestry

/-! # The link to what was selected

A chain that ends an address has taken every segment of it, and the lineage of the last route is the
chain. A link to this route from the captured values therefore has the segments of the address that
was selected, and its slash too where the route insists on one. The path itself may be written in
another way: with empty parts, other escapes, a query or a fragment.
-/

namespace RouteTree

/-- The arguments give every parameter of a selected route the segment that was captured for it. -/
def Selection.IsGivenBy (selection : Selection) (arguments : Entries) : Prop :=
  ∀ pattern ∈ selection.pattern, ∀ entry ∈ pattern.parameters.zip selection.values,
    arguments.valueOf entry.1 = .text entry.2

namespace Route

variable {route : Route} {block values : List String} {arguments : Entries}

/-- A route that is filled in with what it captured spells the same block again. -/
theorem filledSegments_of_spells (proper : ∀ pattern ∈ route.pattern, pattern.WellFormed)
    (spells : Segment.Spells route.expected block values)
    (given : ∀ pattern ∈ route.pattern, ∀ entry ∈ pattern.parameters.zip values,
      arguments.valueOf entry.1 = .text entry.2) : route.filledSegments arguments = block := by
  rw [route.filledSegments_eq_map]
  refine (spells.eq_filled ?_).symm
  intro entry member
  rw [expected] at member
  cases present : route.pattern with
  | none => simp [present] at member
  | some pattern =>
    rw [present, Option.elim_some, ← (proper pattern present).parameters_eq] at member
    exact given pattern present entry member

/-- Some value is captured for every parameter of a route. -/
theorem exists_captured (proper : ∀ pattern ∈ route.pattern, pattern.WellFormed)
    (spells : Segment.Spells route.expected block values) {pattern : Pattern}
    (present : route.pattern = some pattern) {name : String} (member : name ∈ pattern.parameters) :
    ∃ value, (name, value) ∈ pattern.parameters.zip values := by
  rw [expected, present, Option.elim_some] at spells
  rw [(proper pattern present).parameters_eq] at member ⊢
  exact spells.exists_captured member

end Route

namespace Hierarchy

variable {hierarchy : Hierarchy} {router : RouterId} {arrival : Arrival} {id : RouteId}
  {segments rest : List String} {above others : List Selection} {first last : Selection}
  {blocks : List (List String)} {arguments : Entries} {config : Config}

namespace Accounts

variable (accounts : Accounts hierarchy arrival id segments above last blocks rest)
include accounts

/-- Every selected route spells some block. -/
theorem spells_of_mem {selection : Selection} (member : selection ∈ above ++ [last]) :
    ∃ block route, hierarchy.route? selection.route = some route ∧
      selection.pattern = route.pattern ∧
        Segment.Spells route.expected block selection.values := by
  obtain ⟨index, bound, rfl⟩ := List.mem_iff_getElem.mp member
  exact ⟨_, accounts.spelled.get bound (accounts.spelled.length_eq ▸ bound)⟩

variable (constructed : hierarchy.Constructed)
  (given : ∀ selection ∈ above ++ [last], selection.IsGivenBy arguments)
include constructed given

/-- The routes of a chain, filled in with what they captured, spell their blocks again. -/
theorem filledSegments_eq :
    hierarchy.filledSegments arguments ((above ++ [last]).map Selection.route) =
      blocks.flatten := by
  have spelled := accounts.spelled
  clear accounts
  generalize above ++ [last] = chain at spelled given
  induction spelled with
  | nil => rfl
  | @cons selection block chain blocks here onward ih =>
    obtain ⟨route, found, same, spells⟩ := here
    have filled := Route.filledSegments_of_spells (constructed.wellFormed found) spells
      fun pattern present => given selection List.mem_cons_self pattern (same ▸ present)
    have later := ih fun other member => given other (List.mem_cons_of_mem _ member)
    rw [filledSegments] at later ⊢
    rw [List.map_cons, List.flatMap_cons, later, found, Option.elim_some, filled, List.flatten_cons]

/-- Every parameter of a chain has a captured value, so the arguments give it one. -/
theorem isGiven (lineage : (above ++ [last]).map Selection.route = hierarchy.lineage last.route) :
    hierarchy.IsGiven last.route arguments := by
  intro pattern listed name member
  obtain ⟨id, placed, route, found, present⟩ := mem_patterns_iff.mp listed
  rw [← lineage] at placed
  obtain ⟨selection, selected, rfl⟩ := List.mem_map.mp placed
  obtain ⟨block, other, found', same, spells⟩ := accounts.spells_of_mem selected
  obtain rfl := Option.some.inj (found.symm.trans found')
  obtain ⟨value, captured⟩ :=
    Route.exists_captured (constructed.wellFormed found) spells present member
  rw [given selection selected pattern (same ▸ present) _ captured]
  rfl

end Accounts

/-- A route without a pattern ends an address only if it stands alone and there are no segments. -/
theorem Accounts.segments_eq_nil
    (accounts : Accounts hierarchy arrival id segments above last blocks [])
    (ends : last.kind = .index) {route : Route} (found : hierarchy.route? last.route = some route)
    (pathless : route.pattern = none) : segments = [] := by
  have alone : above = [] := by
    by_contra below
    simpa [pathless] using accounts.patterned ends below route found
  subst alone
  have spelled := accounts.spelled
  rw [List.nil_append, List.forall₂_cons_left_iff] at spelled
  obtain ⟨block, _, ⟨other, found', _, spells⟩, none, rfl⟩ := spelled
  obtain rfl := List.forall₂_nil_left_iff.mp none
  obtain rfl := Option.some.inj (found.symm.trans found')
  rw [Route.expected, pathless, Option.elim_none, Segment.spells_nil_iff] at spells
  rw [accounts.segments_eq, spells.1]
  rfl

/-! ## The link from captured values -/

section

variable (accounts : Accounts hierarchy arrival id segments above last blocks [])
  (constructed : hierarchy.Constructed)
  (given : ∀ selection ∈ above ++ [last], selection.IsGivenBy arguments)
  (lineage : (above ++ [last]).map Selection.route = hierarchy.lineage last.route)
include accounts constructed given lineage

/-- The link from the captured values of a lineage carries the segments that were selected. -/
theorem Accounts.segments_filledAddress :
    (hierarchy.filledAddress last.route arguments).segments = segments := by
  have filled := accounts.filledSegments_eq constructed given
  rw [lineage] at filled
  rw [accounts.segments_eq, List.append_nil, ← filled]
  rfl

/-- Captured values fill in the lineage, since they stand among segments that are not empty. -/
theorem Accounts.isFilled (shown : ∀ text ∈ segments, text ≠ "") :
    ∀ pattern ∈ hierarchy.patterns last.route, pattern.IsFilledBy arguments := by
  apply (accounts.isGiven constructed given lineage).filled constructed
  intro pattern member empty
  refine shown "" ?_ rfl
  rw [← accounts.segments_filledAddress constructed given lineage, filledAddress, filledLink,
    ← flatMap_filledSegments]
  exact List.mem_flatMap.mpr ⟨pattern, member, empty⟩

/-- The link from the captured values ends as the selected address did, if the route insists. -/
theorem Accounts.trailingSlash_eq (forest : hierarchy.Forest) (ends : last.kind = .index)
    (empty : segments = [] → arrival.trailingSlash = false) {route : Route}
    (found : hierarchy.route? last.route = some route) (insists : route.slashMustMatch = true) :
    (hierarchy.filledAddress last.route arguments).trailingSlash = arrival.trailingSlash := by
  rcases accounts.slash ends route found with pathless | careless | ⟨pattern, present, same⟩
  · have none := accounts.segments_eq_nil ends found pathless
    have unwritten : (hierarchy.filledLink last.route arguments).segments = [] :=
      (accounts.segments_filledAddress constructed given lineage).trans none
    rw [empty none, filledAddress]
    simp [unwritten]
  · rw [careless] at insists
    contradiction
  · rw [trailingSlash_filledAddress constructed, forest.getLast?_patterns found present]
    exact same

end

/-- What a chain that ends an address captured fills in the lineage of its last route, and the link
made from it carries the segments that were selected. -/
theorem link_of_captured {edits : List Edit} {context : Value} {path : String}
    (configured : (build edits).config? router = some config)
    (selected : ((build edits).selectPath router context path).result = .ok (.chain first others))
    (ends : ((first :: others).getLast (List.cons_ne_nil _ _)).kind = .index)
    (given : ∀ selection ∈ first :: others, selection.IsGivenBy arguments) :
    ∃ original route id, id = ((first :: others).getLast (List.cons_ne_nil _ _)).route ∧
      Address.parse? config path = some original ∧ (build edits).route? id = some route ∧
      (build edits).link router id arguments =
        .ok (((build edits).filledLink id arguments).text config.mount) ∧
      (∀ pattern ∈ (build edits).patterns id, pattern.IsFilledBy arguments) ∧
      ((build edits).filledAddress id arguments).segments = original.segments ∧
      (route.slashMustMatch = true →
        ((build edits).filledAddress id arguments).trailingSlash = original.trailingSlash) := by
  have forest := forest_build edits
  have constructed := constructed_build edits
  obtain ⟨config', original, root, configured', parsed, listed, walk⟩ :=
    forest.walk_of_selectPath selected
  obtain rfl := Option.some.inj (configured.symm.trans configured')
  have lineage := forest.routes_of_walk_eq_lineage listed walk
  have owned := forest.owner?_of_mem_walk listed walk _ (List.getLast_mem (List.cons_ne_nil _ _))
  obtain ⟨above, last, blocks, rest, chain, accounts⟩ := walk.accounts
  simp only [chain, List.getLast_append_of_ne_nil, ne_eq, List.cons_ne_nil, not_false_eq_true,
    List.getLast_singleton] at ends lineage owned given ⊢
  obtain rfl := accounts.rest_eq_nil_iff.mpr ends
  obtain ⟨_, route, found, _, _⟩ :=
    accounts.spells_of_mem (List.mem_append_right above List.mem_cons_self)
  have filled := accounts.isFilled constructed given lineage
    (Address.ne_empty_of_mem_segments parsed)
  exact ⟨original, route, last.route, rfl, parsed, found,
    link_of_filled constructed filled owned configured, filled,
    accounts.segments_filledAddress constructed given lineage,
    accounts.trailingSlash_eq constructed given lineage forest ends
      (Address.trailingSlash_of_segments_eq_nil parsed) found⟩

/-- The link to the last route of a chain that ends an address, made from what the chain captured,
is read as an address with the same segments, and with the same slash if the route insists on
one. -/
theorem parse?_link_of_selectPath {edits : List Edit} {context : Value} {path : String}
    (configured : (build edits).config? router = some config) (reads : config.ReadsLinks)
    (selected : ((build edits).selectPath router context path).result = .ok (.chain first others))
    (ends : ((first :: others).getLast (List.cons_ne_nil _ _)).kind = .index)
    (given : ∀ selection ∈ first :: others, selection.IsGivenBy arguments) :
    ∃ text original address route,
      (build edits).link router ((first :: others).getLast (List.cons_ne_nil _ _)).route arguments =
        .ok text ∧
      Address.parse? config path = some original ∧ Address.parse? config text = some address ∧
      address.segments = original.segments ∧
      (build edits).route? ((first :: others).getLast (List.cons_ne_nil _ _)).route = some route ∧
      (route.slashMustMatch = true → address.trailingSlash = original.trailingSlash) := by
  have constructed := constructed_build edits
  obtain ⟨original, route, _, rfl, parsed, found, linked, filled, segments, slash⟩ :=
    link_of_captured configured selected ends given
  exact ⟨_, original, _, route, linked, parsed, parse?_filledLink constructed reads filled, segments,
    found, slash⟩

/-! ### Another way to write the path of an item -/

/-- The address of an item whose kind has a slash in its name. -/
def itemAddress : Address :=
  ⟨["find", "a/b", "7"], true, .ofText "zzz"⟩

def listSelection : Selection :=
  listRoute.selection ⟨0⟩ (.ofAddress .null itemAddress) ["a/b"] (.dict [("kind", .text "a/b")])
    .inner

def itemSelection : Selection :=
  itemRoute.selection ⟨1⟩ (.ofAddress .null itemAddress) ["7"] (.dict [("id", .text "7")]) .index

def capturedArguments : Entries :=
  [("kind", .text "a/b"), ("id", .text "7")]

theorem parse?_link_of_selectPath_item :
    (build shopEdits).config? ⟨0⟩ = some shopConfig ∧ shopConfig.ReadsLinks ∧
      ((build shopEdits).selectPath ⟨0⟩ .null "/shop//find/a%2fb/7/?zzz#x").result =
        .ok (.chain listSelection [itemSelection]) ∧
      itemSelection.kind = .index ∧
      (∀ selection ∈ [listSelection, itemSelection], selection.IsGivenBy capturedArguments) ∧
      ∃ text original address route,
        (build shopEdits).link ⟨0⟩ itemSelection.route capturedArguments = .ok text ∧
        Address.parse? shopConfig "/shop//find/a%2fb/7/?zzz#x" = some original ∧
        Address.parse? shopConfig text = some address ∧
        address.segments = original.segments ∧
        (build shopEdits).route? itemSelection.route = some route ∧
        (route.slashMustMatch = true → address.trailingSlash = original.trailingSlash) := by
  have configured : (build shopEdits).config? ⟨0⟩ = some shopConfig := by
    rw [build_shopEdits]
    rfl
  have selected : ((build shopEdits).selectPath ⟨0⟩ .null "/shop//find/a%2fb/7/?zzz#x").result =
      .ok (.chain listSelection [itemSelection]) := by
    rw [build_shopEdits]
    rfl
  have given : ∀ selection ∈ [listSelection, itemSelection],
      selection.IsGivenBy capturedArguments := by
    intro selection member pattern present entry captured
    rcases List.mem_cons.mp member with rfl | later
    · obtain rfl := Option.some.inj present
      obtain rfl : entry = ("kind", "a/b") := List.mem_singleton.mp captured
      rfl
    · obtain rfl := List.mem_singleton.mp later
      obtain rfl := Option.some.inj present
      obtain rfl : entry = ("id", "7") := List.mem_singleton.mp captured
      rfl
  exact ⟨configured, shopConfig_readsLinks, selected, rfl, given,
    parse?_link_of_selectPath configured shopConfig_readsLinks selected rfl given⟩

end Hierarchy

end RouteTree
