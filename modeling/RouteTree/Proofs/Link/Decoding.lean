import RouteTree.Proofs.Link.Filling
import RouteTree.Proofs.Link.Reading

/-! # What is written into a link is read from it

A link carries the segments of all patterns of a lineage, the slash of the last one, and the values
of every search name once. Names may be declared by several patterns; their fields stand together
where the first of them declares the name, so that the query read from the link has one group for
each name, in the order of first declaration.
-/

namespace RouteTree

/-- Null, or a sequence without items: a search name with such a value is left out of a link. -/
def Value.isVoid : Value → Bool
  | .null => true
  | .list items => items.isEmpty
  | .tuple items => items.isEmpty
  | _ => false

theorem Value.isVoid_eq (value : Value) : value.isVoid = value.plainItems.isEmpty := by
  cases value <;> simp [isVoid, plainItems]

/-- A configuration with which a router reads its own links: segments are decoded, and the mount
holds neither of the marks that end a path. -/
structure Config.ReadsLinks (config : Config) : Prop where
  decodes : config.decodesSegments = true
  noQuery : '?' ∉ config.mount.toList
  noFragment : '#' ∉ config.mount.toList

namespace Link

variable {arguments : Entries}

/-! ## Names are written once -/

/-- The fields of names that were not written before. -/
theorem filter_written (arguments : Entries) (written names : List String) :
    (names.flatMap (Pattern.queryFields arguments)).filter
        (fun field => !written.contains field.1) =
      (names.removeAll written).flatMap (Pattern.queryFields arguments) := by
  induction names with
  | nil => rfl
  | cons name rest ih =>
    have block : (Pattern.queryFields arguments name).filter
          (fun field => !written.contains field.1) =
        if name ∈ written then [] else Pattern.queryFields arguments name := by
      by_cases before : name ∈ written <;> simp [Pattern.queryFields, before, List.filter_map,
        Function.comp_def]
    rw [List.flatMap_cons, List.filter_append, block, ih]
    by_cases before : name ∈ written <;> simp [List.removeAll, before]

/-- Leaving out some names and then others is leaving out all of them. -/
theorem removeAll_removeAll (names first second : List String) :
    (names.removeAll first).removeAll (second.removeAll first) =
      names.removeAll (first ++ second) := by
  simp only [List.removeAll, List.filter_filter]
  refine List.filter_congr fun name _ => ?_
  by_cases before : name ∈ first <;> simp [before]

/-- The fields of a chain of patterns are those of each of its names, in the order in which the
names are first declared. -/
theorem chainFields_eq_flatMap {patterns : List Pattern}
    (proper : ∀ pattern ∈ patterns, pattern.WellFormed) (written : List String) :
    chainFields arguments written patterns =
      ((patterns.flatMap Pattern.searchNames).removeAll written).eraseDups.flatMap
        (Pattern.queryFields arguments) := by
  induction patterns generalizing written with
  | nil => rfl
  | cons pattern rest ih =>
    have distinct : (pattern.searchNames.removeAll written).Nodup :=
      ((List.nodup_append.mp (proper pattern List.mem_cons_self).distinct).2.1).filter _
    have split : (pattern.searchNames ++ rest.flatMap Pattern.searchNames).removeAll written =
        pattern.searchNames.removeAll written ++
          (rest.flatMap Pattern.searchNames).removeAll written :=
      List.filter_append ..
    rw [chainFields, Pattern.filledFields, filter_written,
      ih fun other member => proper other (List.mem_cons_of_mem _ member), List.flatMap_cons, split,
      List.eraseDups_append, removeAll_removeAll, Query.eraseDups_of_nodup distinct,
      List.flatMap_append]

/-- The query of a link has a group for every name that is declared and has values. -/
theorem group_chainFields {patterns : List Pattern}
    (proper : ∀ pattern ∈ patterns, pattern.WellFormed) :
    Query.group (chainFields arguments [] patterns) =
      (patterns.flatMap Pattern.searchNames).eraseDups.filterMap fun name =>
        Query.Group.ofValues? name (arguments.valueOf name).plainItems := by
  have all : (patterns.flatMap Pattern.searchNames).removeAll [] =
      patterns.flatMap Pattern.searchNames := List.filter_eq_self.mpr (by simp)
  rw [chainFields_eq_flatMap proper, all]
  exact Query.group_blocks (Query.nodup_eraseDups _) _

end Link

namespace Hierarchy

variable {hierarchy : Hierarchy} {router : RouterId} {id : RouteId} {arguments : Entries}
  {config : Config}

/-! ## The address of a link -/

/-- The search names that a link to a route carries: those that its lineage declares, in the order
of first declaration and each once, unless their value is void. -/
def givenNames (hierarchy : Hierarchy) (id : RouteId) (arguments : Entries) : List String :=
  ((hierarchy.patterns id).flatMap Pattern.searchNames).eraseDups.filter fun name =>
    !(arguments.valueOf name).isVoid

/-- The query of a link has the texts of every given name under this name. -/
theorem groups_filledAddress (constructed : hierarchy.Constructed) :
    (hierarchy.filledAddress id arguments).query.groups.map
        (fun group => (group.name, group.values)) =
      (hierarchy.givenNames id arguments).map fun name =>
        (name, (arguments.valueOf name).plainItems) := by
  rw [filledAddress, filledLink, Link.group_chainFields constructed.patterns_wellFormed,
    Query.Group.map_filterMap_ofValues?, givenNames]
  simp only [Value.isVoid_eq]

/-- A router reads the link to a filled-in lineage as the address that was written. -/
theorem parse?_filledLink (constructed : hierarchy.Constructed) (reads : config.ReadsLinks)
    (filled : ∀ pattern ∈ hierarchy.patterns id, pattern.IsFilledBy arguments) :
    Address.parse? config ((hierarchy.filledLink id arguments).text config.mount) =
      some (hierarchy.filledAddress id arguments) :=
  Link.parse?_text (ne_empty_of_mem_filledLink constructed filled) reads.decodes reads.noQuery
    reads.noFragment

/-- A lineage that is given and has no empty segment is filled in. -/
theorem IsGiven.filled (given : hierarchy.IsGiven id arguments)
    (constructed : hierarchy.Constructed)
    (shown : ∀ pattern ∈ hierarchy.patterns id, "" ∉ pattern.filledSegments arguments) :
    ∀ pattern ∈ hierarchy.patterns id, pattern.IsFilledBy arguments := by
  intro pattern listed name member
  refine ⟨given pattern listed name member, ?_⟩
  intro empty
  rw [(constructed.patterns_wellFormed pattern listed).parameters_eq] at member
  obtain ⟨segment, placed, named⟩ := List.mem_filterMap.mp member
  cases segment with
  | literal text => contradiction
  | parameter other =>
    obtain rfl := Option.some.inj named
    exact shown pattern listed (List.mem_map.mpr ⟨_, placed, empty⟩)

/-- Filled-in patterns are rendered one after the other. -/
theorem mapM_render_of_filled {patterns : List Pattern}
    (proper : ∀ pattern ∈ patterns, pattern.WellFormed)
    (filled : ∀ pattern ∈ patterns, pattern.IsFilledBy arguments) :
    patterns.mapM (fun pattern => pattern.render arguments) =
      .ok (patterns.map fun pattern =>
        ⟨pattern.filledSegments arguments, pattern.filledFields arguments⟩) :=
  (Pattern.mapM_render_eq_ok_iff proper).mpr
    ⟨fun pattern listed name member => (filled pattern listed name member).1, rfl⟩

/-- A link whose segments are not empty is read back: as the rendered segments of the lineage, with
the slash of the last pattern in it, and with the texts of every search name that has any, under
this name and in the order of first declaration. -/
theorem parse?_link {edits : List Edit} {text : String}
    (configured : (build edits).config? router = some config) (reads : config.ReadsLinks)
    (linked : (build edits).link router id arguments = .ok text)
    (shown : ∀ pattern ∈ (build edits).patterns id, ∀ rendered,
      pattern.render arguments = .ok rendered → "" ∉ rendered.segments) :
    ∃ rendered address,
      ((build edits).patterns id).mapM (fun pattern => pattern.render arguments) = .ok rendered ∧
      Address.parse? config text = some address ∧
      address.segments = rendered.flatMap Rendered.segments ∧
      address.trailingSlash =
        ((build edits).patterns id).getLast?.elim false Pattern.trailingSlash ∧
      address.query.groups.map (fun group => (group.name, group.values)) =
        ((build edits).givenNames id arguments).map fun name =>
          (name, (arguments.valueOf name).plainItems) := by
  have constructed := constructed_build edits
  have proper : ∀ pattern ∈ (build edits).patterns id, pattern.WellFormed :=
    constructed.patterns_wellFormed
  obtain ⟨_, given, rfl⟩ := (link_eq_ok_iff constructed configured).mp linked
  have filled : ∀ pattern ∈ (build edits).patterns id, pattern.IsFilledBy arguments := by
    apply given.filled constructed
    intro pattern listed
    exact shown pattern listed _ ((Pattern.render_eq_ok_iff (proper pattern listed)).mpr
      ⟨given pattern listed, rfl⟩)
  refine ⟨_, _, mapM_render_of_filled proper filled, parse?_filledLink constructed reads filled, ?_,
    trailingSlash_filledAddress constructed, groups_filledAddress constructed⟩
  rw [List.flatMap_map]
  exact ((build edits).flatMap_filledSegments id arguments).symm

/-! ### A page number that a list and its items share -/

def listRoute : Route :=
  ⟨some ⟨[.literal "find", .parameter "kind"], ["kind"], ["q", "page"], true, false⟩, none, none,
    none, .null, true⟩

def itemRoute : Route :=
  ⟨some ⟨[.parameter "id"], ["id"], ["page", "tab", "sort"], true, true⟩, none, none, none, .null,
    true⟩

def shopEdits : List Edit :=
  [.router "/shop/" true,
    .route ⟨some "/find/\x7bkind\x7d?\x7bq\x7d&\x7bpage\x7d", none, none, none, .null, true⟩,
    .route ⟨some "/\x7bid\x7d/?\x7bpage\x7d&\x7btab\x7d&\x7bsort\x7d", none, none, none, .null,
      true⟩,
    .append (.route ⟨0⟩) [⟨1⟩],
    .append (.router ⟨0⟩) [⟨0⟩]]

def shopHierarchy : Hierarchy :=
  { nodes := #[⟨listRoute, .root ⟨0⟩, [⟨1⟩]⟩, ⟨itemRoute, .below ⟨0⟩, []⟩]
    routers := #[⟨⟨"/shop", true⟩, [⟨0⟩]⟩] }

def shopConfig : Config :=
  ⟨"/shop", true⟩

def itemArguments : Entries :=
  [("kind", .text "a/b?"), ("q", .list [.text "x&y", .int 2]), ("page", .bool false),
    ("tab", .list []), ("id", .int 7)]

theorem build_shopEdits : build shopEdits = shopHierarchy := by
  have list : Pattern.parse "/find/\x7bkind\x7d?\x7bq\x7d&\x7bpage\x7d" =
      .ok ⟨[.literal "find", .parameter "kind"], ["kind"], ["q", "page"], true, false⟩ :=
    Pattern.parse_eq_ok_iff.mpr (by decide)
  have item : Pattern.parse "/\x7bid\x7d/?\x7bpage\x7d&\x7btab\x7d&\x7bsort\x7d" =
      .ok ⟨[.parameter "id"], ["id"], ["page", "tab", "sort"], true, true⟩ :=
    Pattern.parse_eq_ok_iff.mpr (by decide)
  simp only [build, editAll, shopEdits, List.foldl_cons, List.foldl_nil, edit, Route.ofSpec,
    RouteSpec.pattern, list, item]
  rfl

theorem shopConfig_readsLinks : shopConfig.ReadsLinks :=
  ⟨rfl, by decide, by decide⟩

theorem parse?_link_item :
    (build shopEdits).config? ⟨0⟩ = some shopConfig ∧ shopConfig.ReadsLinks ∧
      (build shopEdits).link ⟨0⟩ ⟨1⟩ itemArguments =
        .ok "/shop/find/a%2Fb%3F/7/?q=x%26y&q=2&page=False" ∧
      (∀ pattern ∈ (build shopEdits).patterns ⟨1⟩, ∀ rendered,
        pattern.render itemArguments = .ok rendered → "" ∉ rendered.segments) ∧
      ∃ rendered address,
        ((build shopEdits).patterns ⟨1⟩).mapM (fun pattern => pattern.render itemArguments) =
          .ok rendered ∧
        Address.parse? shopConfig "/shop/find/a%2Fb%3F/7/?q=x%26y&q=2&page=False" = some address ∧
        address.segments = rendered.flatMap Rendered.segments ∧
        address.trailingSlash =
          ((build shopEdits).patterns ⟨1⟩).getLast?.elim false Pattern.trailingSlash ∧
        address.query.groups.map (fun group => (group.name, group.values)) =
          ((build shopEdits).givenNames ⟨1⟩ itemArguments).map fun name =>
            (name, (itemArguments.valueOf name).plainItems) := by
  have configured : (build shopEdits).config? ⟨0⟩ = some shopConfig := by
    rw [build_shopEdits]
    rfl
  have linked : (build shopEdits).link ⟨0⟩ ⟨1⟩ itemArguments =
      .ok "/shop/find/a%2Fb%3F/7/?q=x%26y&q=2&page=False" := by
    rw [build_shopEdits]
    rfl
  have shown : ∀ pattern ∈ (build shopEdits).patterns ⟨1⟩, ∀ rendered,
      pattern.render itemArguments = .ok rendered → "" ∉ rendered.segments := by
    rw [build_shopEdits]
    intro pattern listed rendered success
    have patterns : shopHierarchy.patterns ⟨1⟩ =
        [⟨[.literal "find", .parameter "kind"], ["kind"], ["q", "page"], true, false⟩,
          ⟨[.parameter "id"], ["id"], ["page", "tab", "sort"], true, true⟩] := rfl
    rw [patterns] at listed
    rcases List.mem_cons.mp listed with rfl | later
    · obtain rfl : (⟨["find", "a/b?"], [("q", "x&y"), ("q", "2"), ("page", "False")]⟩ : Rendered) =
        rendered := Except.ok.inj success
      decide
    · obtain rfl := List.mem_singleton.mp later
      obtain rfl : (⟨["7"], [("page", "False")]⟩ : Rendered) = rendered := Except.ok.inj success
      decide
  exact ⟨configured, shopConfig_readsLinks, linked, shown,
    parse?_link configured shopConfig_readsLinks linked shown⟩

example : shopHierarchy.givenNames ⟨1⟩ itemArguments = ["q", "page"] := by
  decide

end Hierarchy

end RouteTree
