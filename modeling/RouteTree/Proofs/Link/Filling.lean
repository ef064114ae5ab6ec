import RouteTree.Address
import RouteTree.Link
import RouteTree.Proofs.Hierarchy.Constructed
import RouteTree.Proofs.Hierarchy.Lineage
import RouteTree.Proofs.Pattern.Filling
import RouteTree.Proofs.Query.Grouping

/-! # Links to filled-in patterns

A chain of patterns that the arguments fill in gives a link with all their segments, the slash of
the last one, and each search name once, with the values of its first occurrence.
-/

namespace RouteTree

/-- Patterns are filled in one after the other exactly when every parameter of their paths is
given. -/
theorem Pattern.mapM_render_eq_ok_iff {arguments : Entries} {patterns : List Pattern}
    (proper : ∀ pattern ∈ patterns, pattern.WellFormed) {rendered : List Rendered} :
    patterns.mapM (fun pattern => pattern.render arguments) = .ok rendered ↔
      (∀ pattern ∈ patterns, ∀ name ∈ pattern.parameters,
        (arguments.valueOf name).isNull = false) ∧
      rendered = patterns.map fun pattern =>
        ⟨pattern.filledSegments arguments, pattern.filledFields arguments⟩ := by
  induction patterns generalizing rendered with
  | nil => exact ⟨fun same => ⟨by simp, (Except.ok.inj same).symm⟩, fun same => same.2 ▸ rfl⟩
  | cons pattern rest ih =>
    have onward := @ih fun other member => proper other (List.mem_cons_of_mem _ member)
    simp only [List.mapM_cons, bind_eq_ok_iff, render_eq_ok_iff (proper pattern List.mem_cons_self),
      onward, List.forall_mem_cons, List.map_cons]
    constructor
    · rintro ⟨_, ⟨given, rfl⟩, _, ⟨others, rfl⟩, same⟩
      exact ⟨⟨given, others⟩, (Except.ok.inj same).symm⟩
    · rintro ⟨⟨given, others⟩, rfl⟩
      exact ⟨_, ⟨given, rfl⟩, _, ⟨others, rfl⟩, rfl⟩

namespace Link

variable {arguments : Entries}

/-- The fields of a chain of patterns, without those of names that were written before. -/
def chainFields (arguments : Entries) : List String → List Pattern → List (String × String)
  | _, [] => []
  | written, pattern :: rest =>
    (pattern.filledFields arguments).filter (fun field => !written.contains field.1) ++
      chainFields arguments (written ++ pattern.searchNames) rest

/-- A chain of patterns gives a link exactly when every parameter of their paths is given. -/
theorem ofPatterns_eq_ok_iff {patterns : List Pattern}
    (proper : ∀ pattern ∈ patterns, pattern.WellFormed) (written : List String) (slash : Bool)
    {link : Link} :
    ofPatterns arguments written slash patterns = .ok link ↔
      (∀ pattern ∈ patterns, ∀ name ∈ pattern.parameters,
        (arguments.valueOf name).isNull = false) ∧
      link =
        { segments := patterns.flatMap fun pattern => pattern.filledSegments arguments
          query := chainFields arguments written patterns
          trailingSlash := patterns.getLast?.elim slash Pattern.trailingSlash } := by
  induction patterns generalizing written slash link with
  | nil => exact ⟨fun same => ⟨by simp, (Except.ok.inj same).symm⟩, fun same => same.2 ▸ rfl⟩
  | cons pattern rest ih =>
    have here : pattern.WellFormed := proper pattern List.mem_cons_self
    have onward := @ih fun other member => proper other (List.mem_cons_of_mem _ member)
    have slashes : (pattern :: rest).getLast?.elim slash Pattern.trailingSlash =
        rest.getLast?.elim pattern.trailingSlash Pattern.trailingSlash := by
      rw [List.getLast?_cons]
      cases rest.getLast? <;> rfl
    simp only [ofPatterns, bind_eq_ok_iff, Pattern.render_eq_ok_iff here, onward,
      List.forall_mem_cons, slashes, List.flatMap_cons, chainFields]
    constructor
    · rintro ⟨_, ⟨given, rfl⟩, _, ⟨others, rfl⟩, same⟩
      exact ⟨⟨given, others⟩, (Except.ok.inj same).symm⟩
    · rintro ⟨⟨given, others⟩, rfl⟩
      exact ⟨_, ⟨given, rfl⟩, _, ⟨others, rfl⟩, rfl⟩

/-! ## The values of a name -/

theorem valuesOf_queryFields (arguments : Entries) (name other : String) :
    Query.valuesOf name (Pattern.queryFields arguments other) =
      if other = name then (arguments.valueOf name).plainItems else [] := by
  rw [Query.valuesOf, Pattern.queryFields]
  by_cases same : other = name
  · simp [same, List.filter_map, Function.comp_def]
  · simp [same, List.filter_map, Function.comp_def]

/-- A pattern that names nothing twice gives each search name the texts of its value. -/
theorem valuesOf_filledFields {pattern : Pattern} (proper : pattern.WellFormed)
    (arguments : Entries) (name : String) :
    Query.valuesOf name (pattern.filledFields arguments) =
      if name ∈ pattern.searchNames then (arguments.valueOf name).plainItems else [] := by
  have distinct : pattern.searchNames.Nodup := (List.nodup_append.mp proper.distinct).2.1
  rw [Pattern.filledFields]
  generalize pattern.searchNames = names at distinct
  induction names with
  | nil => rfl
  | cons other rest ih =>
    obtain ⟨fresh, distinct⟩ := List.nodup_cons.mp distinct
    rw [List.flatMap_cons, Query.valuesOf_append, valuesOf_queryFields, ih distinct]
    by_cases same : other = name
    · subst same
      simp [fresh]
    · simp [same, Ne.symm same]

theorem valuesOf_filter_written (name : String) (written : List String)
    (fields : List (String × String)) :
    Query.valuesOf name (fields.filter fun field => !written.contains field.1) =
      if name ∈ written then [] else Query.valuesOf name fields := by
  simp only [Query.valuesOf, List.filter_filter]
  by_cases before : name ∈ written
  · rw [if_pos before, List.map_eq_nil_iff, List.filter_eq_nil_iff]
    rintro ⟨other, value⟩ _ kept
    simp only [Bool.and_eq_true, decide_eq_true_eq] at kept
    obtain ⟨rfl, absent⟩ := kept
    simp [before] at absent
  · rw [if_neg before]
    congr 1
    refine List.filter_congr fun field _ => ?_
    by_cases same : field.1 = name <;> simp [same, before]

/-- Over a chain of patterns a name has the texts of its value, if it was not written before and
some pattern declares it. -/
theorem valuesOf_chainFields {patterns : List Pattern}
    (proper : ∀ pattern ∈ patterns, pattern.WellFormed) (arguments : Entries) (name : String)
    (written : List String) :
    Query.valuesOf name (chainFields arguments written patterns) =
      if name ∉ written ∧ ∃ pattern ∈ patterns, name ∈ pattern.searchNames then
        (arguments.valueOf name).plainItems
      else [] := by
  induction patterns generalizing written with
  | nil => simp [chainFields, Query.valuesOf]
  | cons pattern rest ih =>
    have onward := ih (fun other member => proper other (List.mem_cons_of_mem _ member))
      (written ++ pattern.searchNames)
    rw [chainFields, Query.valuesOf_append, valuesOf_filter_written,
      valuesOf_filledFields (proper pattern (by simp)), onward]
    by_cases before : name ∈ written
    · simp [before]
    · by_cases here : name ∈ pattern.searchNames <;> simp [before, here]

end Link

namespace Hierarchy

variable {hierarchy : Hierarchy} {router : RouterId} {id : RouteId} {arguments : Entries}

/-! ## Lineages that are filled in -/

/-- The segments that a line of routes contributes to a link. -/
def filledSegments (hierarchy : Hierarchy) (arguments : Entries) (ids : List RouteId) :
    List String :=
  ids.flatMap fun id => (hierarchy.route? id).elim [] fun route => route.filledSegments arguments

/-- The parts of the link to a route whose lineage the arguments fill in. -/
def filledLink (hierarchy : Hierarchy) (id : RouteId) (arguments : Entries) : Link :=
  { segments := hierarchy.filledSegments arguments (hierarchy.lineage id)
    query := Link.chainFields arguments [] (hierarchy.patterns id)
    trailingSlash := (hierarchy.patterns id).getLast?.elim false Pattern.trailingSlash }

/-- The address that a filled-in link stands for. -/
def filledAddress (hierarchy : Hierarchy) (id : RouteId) (arguments : Entries) : Address :=
  let link := hierarchy.filledLink id arguments
  { segments := link.segments
    trailingSlash := link.trailingSlash && !link.segments.isEmpty
    query := ⟨String.ofList (Text.Form.encode link.query), Query.group link.query⟩ }

theorem mem_patterns_iff {pattern : Pattern} :
    pattern ∈ hierarchy.patterns id ↔ ∃ above ∈ hierarchy.lineage id,
      ∃ route, hierarchy.route? above = some route ∧ pattern ∈ route.pattern := by
  simp [patterns, route?, Option.bind_eq_some_iff]

/-- The patterns above a route are well-formed. -/
theorem Constructed.patterns_wellFormed (constructed : hierarchy.Constructed) :
    ∀ pattern ∈ hierarchy.patterns id, pattern.WellFormed := by
  intro pattern member
  obtain ⟨above, _, route, found, present⟩ := mem_patterns_iff.mp member
  exact constructed.wellFormed found pattern present

/-- What the patterns of a lineage give together, its routes give one after the other. -/
theorem flatMap_patterns {α : Type} (hierarchy : Hierarchy) (id : RouteId)
    (part : Pattern → List α) :
    (hierarchy.patterns id).flatMap part =
      (hierarchy.lineage id).flatMap fun above =>
        (hierarchy.route? above).elim [] fun route => route.pattern.elim [] part := by
  rw [patterns]
  induction hierarchy.lineage id with
  | nil => rfl
  | cons above rest ih =>
    rw [List.filterMap_cons, List.flatMap_cons, ← ih, route?]
    cases hierarchy.node? above with
    | none => rfl
    | some node =>
      rw [Option.bind_some, Option.map_some, Option.elim_some]
      cases node.route.pattern <;> rfl

theorem flatMap_filledSegments (hierarchy : Hierarchy) (id : RouteId) (arguments : Entries) :
    (hierarchy.patterns id).flatMap (fun pattern => pattern.filledSegments arguments) =
      hierarchy.filledSegments arguments (hierarchy.lineage id) :=
  hierarchy.flatMap_patterns id fun pattern => pattern.filledSegments arguments

/-- The last pattern of a lineage is that of the route, if the route has one. -/
theorem Forest.getLast?_patterns (forest : hierarchy.Forest) {route : Route}
    (found : hierarchy.route? id = some route) {pattern : Pattern}
    (present : route.pattern = some pattern) :
    (hierarchy.patterns id).getLast? = some pattern := by
  obtain ⟨above, lineage⟩ := forest.lineage_eq_append id
  obtain ⟨node, held, rfl⟩ := Option.map_eq_some_iff.mp found
  simp [patterns, lineage, held, present]

/-- The address of a link ends as the last pattern of the lineage does. -/
theorem trailingSlash_filledAddress (constructed : hierarchy.Constructed) :
    (hierarchy.filledAddress id arguments).trailingSlash =
      (hierarchy.patterns id).getLast?.elim false Pattern.trailingSlash := by
  cases last : (hierarchy.patterns id).getLast? with
  | none => simp [filledAddress, filledLink, last]
  | some pattern =>
    have listed : pattern ∈ hierarchy.patterns id := List.mem_of_getLast? last
    have present : hierarchy.filledSegments arguments (hierarchy.lineage id) ≠ [] := by
      rw [← flatMap_filledSegments]
      intro empty
      exact Pattern.filledSegments_ne_nil (constructed.patterns_wellFormed pattern listed) arguments
        (List.flatMap_eq_nil_iff.mp empty pattern listed)
    simp [filledAddress, filledLink, last, present]

/-! ## The link is made -/

/-- The arguments give every parameter in the paths of a lineage a value. -/
def IsGiven (hierarchy : Hierarchy) (id : RouteId) (arguments : Entries) : Prop :=
  ∀ pattern ∈ hierarchy.patterns id, ∀ name ∈ pattern.parameters,
    (arguments.valueOf name).isNull = false

theorem linkParts_eq_ok_iff (constructed : hierarchy.Constructed) {parts : Link} :
    hierarchy.linkParts id arguments = .ok parts ↔
      hierarchy.IsGiven id arguments ∧ parts = hierarchy.filledLink id arguments := by
  rw [linkParts, Link.ofPatterns_eq_ok_iff constructed.patterns_wellFormed, flatMap_filledSegments]
  rfl

/-- A router makes a link exactly to the routes that it owns and whose lineage is given. -/
theorem link_eq_ok_iff (constructed : hierarchy.Constructed) {config : Config}
    (configured : hierarchy.config? router = some config) {text : String} :
    hierarchy.link router id arguments = .ok text ↔
      hierarchy.owner? id = some router ∧ hierarchy.IsGiven id arguments ∧
        text = (hierarchy.filledLink id arguments).text config.mount := by
  obtain ⟨found, present, rfl⟩ := Option.map_eq_some_iff.mp configured
  by_cases owned : hierarchy.owner? id = some router
  · rw [link_of_owned owned, present, Option.elim_some]
    cases parts : hierarchy.linkParts id arguments with
    | error missing =>
      have lacking : ¬ hierarchy.IsGiven id arguments := fun given => by
        rw [(linkParts_eq_ok_iff constructed).mpr ⟨given, rfl⟩] at parts
        contradiction
      simp [Except.mapError, Except.map, lacking]
    | ok found =>
      obtain ⟨given, rfl⟩ := (linkParts_eq_ok_iff constructed).mp parts
      simp [Except.mapError, Except.map, owned, given, eq_comm]
  · simp [link_of_not_owned owned, owned]

theorem link_of_filled (constructed : hierarchy.Constructed)
    (filled : ∀ pattern ∈ hierarchy.patterns id, pattern.IsFilledBy arguments)
    (owned : hierarchy.owner? id = some router) {config : Config}
    (configured : hierarchy.config? router = some config) :
    hierarchy.link router id arguments =
      .ok ((hierarchy.filledLink id arguments).text config.mount) := by
  refine (link_eq_ok_iff constructed configured).mpr ⟨owned, ?_, rfl⟩
  intro pattern listed name member
  exact (filled pattern listed name member).1

/-- No segment of a filled-in link is empty. -/
theorem ne_empty_of_mem_filledLink (constructed : hierarchy.Constructed)
    (filled : ∀ pattern ∈ hierarchy.patterns id, pattern.IsFilledBy arguments) :
    ∀ text ∈ (hierarchy.filledLink id arguments).segments, text ≠ "" := by
  intro text member
  rw [filledLink, ← flatMap_filledSegments] at member
  obtain ⟨pattern, listed, inside⟩ := List.mem_flatMap.mp member
  exact Pattern.ne_empty_of_mem_filledSegments (constructed.patterns_wellFormed pattern listed)
    (filled pattern listed) text inside

/-- Every search name of the lineage is found in the address with the texts of its value. -/
theorem getAll_filledAddress (constructed : hierarchy.Constructed) {pattern : Pattern}
    (member : pattern ∈ hierarchy.patterns id) {name : String}
    (declared : name ∈ pattern.searchNames) :
    (hierarchy.filledAddress id arguments).query.getAll name =
      (arguments.valueOf name).plainItems := by
  rw [filledAddress, Query.getAll_group, filledLink,
    Link.valuesOf_chainFields constructed.patterns_wellFormed]
  exact if_pos ⟨List.not_mem_nil, pattern, member, declared⟩

end Hierarchy

end RouteTree
