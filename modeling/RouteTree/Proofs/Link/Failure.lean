import RouteTree.Proofs.Link.Decoding
import RouteTree.Proofs.Link.Stability
import RouteTree.Proofs.Pattern.Matching

/-! # When a link fails

A link fails for two reasons only. The router does not lead to the route, and then the arguments are
not looked at; or a parameter in the paths of the lineage has no value, and then the first one is
named, from the root down and from left to right. Values that merely look empty are values, and
search names are never missed.
-/

namespace RouteTree

namespace Entries

variable {arguments : Entries} {names : List String} {name : String}

/-- A name is absent, or it is given null. -/
def Lacks (arguments : Entries) (name : String) : Prop :=
  arguments.lookup name = none ∨ arguments.lookup name = some .null

theorem isNull_valueOf_iff : (arguments.valueOf name).isNull = true ↔ arguments.Lacks name := by
  rw [valueOf, Lacks]
  cases arguments.lookup name with
  | none => simp [Value.isNull]
  | some value => cases value <;> simp [Value.isNull]

/-- A name that is lacking while none before it is. -/
def FirstMissing (arguments : Entries) (names : List String) (name : String) : Prop :=
  ∃ before after, names = before ++ name :: after ∧ arguments.Lacks name ∧
    ∀ other ∈ before, ¬ arguments.Lacks other

/-- The first name without a value. -/
def firstMissing? (arguments : Entries) (names : List String) : Option String :=
  names.find? fun name => (arguments.valueOf name).isNull

theorem firstMissing?_eq_some_iff :
    arguments.firstMissing? names = some name ↔ arguments.FirstMissing names name := by
  rw [firstMissing?, List.find?_eq_some_iff_append, isNull_valueOf_iff, FirstMissing]
  simp only [← isNull_valueOf_iff, Bool.not_eq_true', Bool.not_eq_true]
  constructor
  · rintro ⟨lacking, before, after, split, given⟩
    exact ⟨before, after, split, lacking, given⟩
  · rintro ⟨before, after, split, lacking, given⟩
    exact ⟨lacking, before, after, split, given⟩

theorem firstMissing?_eq_none_iff :
    arguments.firstMissing? names = none ↔ ∀ name ∈ names, ¬ arguments.Lacks name := by
  simp only [firstMissing?, List.find?_eq_none, isNull_valueOf_iff]

theorem firstMissing?_append (first second : List String) :
    arguments.firstMissing? (first ++ second) =
      (arguments.firstMissing? first).or (arguments.firstMissing? second) :=
  List.find?_append

end Entries

/-! ## Errors of several steps -/

/-- A computation of two steps fails when one of them does. -/
theorem bind_eq_error_iff {ε α β : Type} {first : Except ε α} {next : α → Except ε β} {error : ε} :
    first >>= next = .error error ↔
      first = .error error ∨ ∃ value, first = .ok value ∧ next value = .error error := by
  cases first <;> simp [bind, Except.bind]

/-- What never fails succeeds. -/
theorem exists_ok_iff {ε α : Type} {computed : Except ε α} :
    (∃ value, computed = .ok value) ↔ ∀ error, computed ≠ .error error := by
  cases computed <;> simp

namespace Pattern

variable {arguments : Entries} {error : MissingParameter}

/-- The names at the places of a path, from left to right. -/
def pathNames (pattern : Pattern) : List String :=
  pattern.segments.filterMap Segment.name?

/-- Places are filled in up to the first one without a value. -/
theorem mapM_render_eq_error_iff {segments : List Segment} :
    segments.mapM (Segment.render arguments) = .error error ↔
      arguments.firstMissing? (segments.filterMap Segment.name?) = some error.name := by
  induction segments with
  | nil => simp [Entries.firstMissing?, pure, Except.pure]
  | cons segment rest ih =>
    rw [List.mapM_cons, bind_eq_error_iff]
    simp only [bind_eq_error_iff, ih]
    cases segment with
    | literal text =>
      rw [List.filterMap_cons_none rfl]
      simp [Segment.render, pure, Except.pure]
    | parameter name =>
      obtain ⟨other⟩ := error
      cases null : (arguments.valueOf name).isNull <;>
        simp [Segment.render, Segment.name?, Entries.firstMissing?, null, pure, Except.pure]

theorem render_eq_error_iff {pattern : Pattern} :
    pattern.render arguments = .error error ↔
      arguments.firstMissing? pattern.pathNames = some error.name := by
  rw [render, bind_eq_error_iff, mapM_render_eq_error_iff, pathNames]
  simp [pure, Except.pure]

end Pattern

/-- A chain of patterns is filled in up to the first parameter without a value. Search names are
not looked at. -/
theorem Link.ofPatterns_eq_error_iff {arguments : Entries} {patterns : List Pattern}
    {written : List String} {slash : Bool} {error : MissingParameter} :
    ofPatterns arguments written slash patterns = .error error ↔
      arguments.firstMissing? (patterns.flatMap Pattern.pathNames) = some error.name := by
  induction patterns generalizing written slash with
  | nil => simp [ofPatterns, Entries.firstMissing?]
  | cons pattern rest ih =>
    rw [ofPatterns, bind_eq_error_iff, List.flatMap_cons, Entries.firstMissing?_append]
    simp only [bind_eq_error_iff, ih, Pattern.render_eq_error_iff]
    cases missing : arguments.firstMissing? pattern.pathNames with
    | some name =>
      have failed : pattern.render arguments = .error ⟨name⟩ :=
        Pattern.render_eq_error_iff.mpr missing
      simp [failed]
    | none =>
      have rendered : ∃ value, pattern.render arguments = .ok value := by
        apply exists_ok_iff.mpr
        intro error failed
        rw [Pattern.render_eq_error_iff, missing] at failed
        contradiction
      obtain ⟨value, success⟩ := rendered
      simp [success, pure, Except.pure]

namespace Hierarchy

variable {hierarchy : Hierarchy} {router : RouterId} {id : RouteId} {arguments : Entries}

/-- A router leads to the routes that are reached from its root routes through children. -/
def LeadsTo (hierarchy : Hierarchy) (router : RouterId) (id : RouteId) : Prop :=
  ∃ root ∈ hierarchy.roots router,
    Relation.ReflTransGen (fun above below => below ∈ hierarchy.children above) root id

/-- The parameters in the paths of a lineage, from the root down and from left to right. -/
def pathParameters (hierarchy : Hierarchy) (id : RouteId) : List String :=
  (hierarchy.lineage id).flatMap fun above =>
    (hierarchy.route? above).elim [] fun route => route.expected.filterMap Segment.name?

theorem flatMap_pathNames (hierarchy : Hierarchy) (id : RouteId) :
    (hierarchy.patterns id).flatMap Pattern.pathNames = hierarchy.pathParameters id := by
  rw [flatMap_patterns, pathParameters]
  congr 1
  funext above
  cases hierarchy.route? above with
  | none => rfl
  | some route =>
    rw [Option.elim_some, Option.elim_some, Route.expected]
    cases route.pattern <;> rfl

/-- The owner of a route misses the first parameter without a value. -/
theorem link_eq_missing_iff (owned : hierarchy.owner? id = some router)
    {error : MissingParameter} :
    hierarchy.link router id arguments = .error (.missing error) ↔
      arguments.firstMissing? (hierarchy.pathParameters id) = some error.name := by
  have parts := @Link.ofPatterns_eq_error_iff arguments (hierarchy.patterns id) [] false error
  rw [flatMap_pathNames] at parts
  rw [link_of_owned owned, ← parts, linkParts]
  cases Link.ofPatterns arguments [] false (hierarchy.patterns id) <;>
    simp [Except.mapError, Except.map]

/-- The owner of a route refuses nothing but missing values. -/
theorem exists_link_iff (owned : hierarchy.owner? id = some router) :
    (∃ text, hierarchy.link router id arguments = .ok text) ↔
      arguments.firstMissing? (hierarchy.pathParameters id) = none := by
  rw [exists_ok_iff]
  constructor
  · intro succeeds
    cases missing : arguments.firstMissing? (hierarchy.pathParameters id) with
    | none => rfl
    | some name =>
      exact (succeeds (.missing ⟨name⟩) ((link_eq_missing_iff owned).mpr missing)).elim
  · intro given error failed
    cases error with
    | notInHierarchy => exact link_ne_notInHierarchy owned arguments failed
    | missing error =>
      rw [link_eq_missing_iff owned, given] at failed
      contradiction

/-- What a router answers when it is asked for a link to a route that it leads to. -/
structure MissesFirst (hierarchy : Hierarchy) (router : RouterId) (id : RouteId)
    (arguments : Entries) : Prop where
  /-- The error names the first parameter that has no value. -/
  missing_iff : ∀ name, hierarchy.link router id arguments = .error (.missing ⟨name⟩) ↔
    arguments.FirstMissing (hierarchy.pathParameters id) name
  /-- There is such an error exactly when some parameter has no value. -/
  fails_iff : (∃ error, hierarchy.link router id arguments = .error (.missing error)) ↔
    ∃ name ∈ hierarchy.pathParameters id, arguments.Lacks name
  /-- Otherwise there is a link, whatever the search names are given. -/
  succeeds_iff : (∃ text, hierarchy.link router id arguments = .ok text) ↔
    ∀ name ∈ hierarchy.pathParameters id, ¬ arguments.Lacks name

theorem missesFirst (owned : hierarchy.owner? id = some router) (arguments : Entries) :
    hierarchy.MissesFirst router id arguments where
  missing_iff name := by
    rw [link_eq_missing_iff owned, Entries.firstMissing?_eq_some_iff]
  fails_iff := by
    have given := @Entries.firstMissing?_eq_none_iff arguments (hierarchy.pathParameters id)
    simp only [link_eq_missing_iff owned]
    constructor
    · rintro ⟨error, missing⟩
      by_contra none
      rw [given.mpr fun name member lacking => none ⟨name, member, lacking⟩] at missing
      contradiction
    · rintro ⟨name, member, lacking⟩
      cases missing : arguments.firstMissing? (hierarchy.pathParameters id) with
      | none => exact (given.mp missing name member lacking).elim
      | some first => exact ⟨⟨first⟩, rfl⟩
  succeeds_iff := by
    rw [exists_link_iff owned, Entries.firstMissing?_eq_none_iff]

/-- A router refuses exactly the routes that it does not lead to, whatever the arguments are; to
every other route it misses the first parameter without a value, or makes a link. A route by itself
is refused a link exactly when no router leads to it, and otherwise has that of the router. -/
theorem link_fails_exactly (edits : List Edit) :
    (∀ router id arguments,
      ((build edits).link router id arguments = .error .notInHierarchy ↔
        ¬ (build edits).LeadsTo router id) ∧
      ((build edits).LeadsTo router id → (build edits).MissesFirst router id arguments)) ∧
    ∀ id arguments,
      ((build edits).linkByOwner id arguments = .error .notInHierarchy ↔
        ∀ router, ¬ (build edits).LeadsTo router id) ∧
      ∀ router, (build edits).LeadsTo router id →
        (build edits).linkByOwner id arguments = (build edits).link router id arguments := by
  have owner {router id} : (build edits).owner? id = some router ↔
      (build edits).LeadsTo router id := (forest_build edits).owner?_eq_some_iff
  refine ⟨fun router id arguments => ⟨?_, fun leads => ?_⟩, fun id arguments => ⟨?_, ?_⟩⟩
  · rw [← owner]
    constructor
    · intro refused owned
      exact link_ne_notInHierarchy owned arguments refused
    · intro foreign
      exact link_of_not_owned foreign arguments
  · exact missesFirst (owner.mpr leads) arguments
  · simp only [← owner, linkByOwner]
    cases owned : (build edits).owner? id with
    | none => simp
    | some router => simp [link_ne_notInHierarchy owned]
  · intro router leads
    rw [linkByOwner, owner.mpr leads]

/-! ### Two routers, one of which leads nowhere -/

def stallEdits : List Edit :=
  shopEdits ++ [.router "" true]

/-- Zero and the empty text are values, null is none, and no argument makes up for the router. -/
theorem link_fails_exactly_stall :
    (build stallEdits).LeadsTo ⟨0⟩ ⟨1⟩ ∧ ¬ (build stallEdits).LeadsTo ⟨1⟩ ⟨1⟩ ∧
      (build stallEdits).link ⟨0⟩ ⟨1⟩ [("kind", .int 0), ("id", .null)] =
        .error (.missing ⟨"id"⟩) ∧
      (build stallEdits).link ⟨1⟩ ⟨1⟩ [("kind", .int 0), ("id", .int 7)] =
        .error .notInHierarchy ∧
      ∃ text, (build stallEdits).linkByOwner ⟨1⟩
        [("kind", .bool false), ("id", .text ""), ("page", .null)] = .ok text := by
  obtain ⟨byRouter, byOwner⟩ := link_fails_exactly stallEdits
  have built : build stallEdits = shopHierarchy.addRouter (.ofMount "" true) := by
    rw [stallEdits, build_append_singleton, build_shopEdits]
    rfl
  have names : (build stallEdits).pathParameters ⟨1⟩ = ["kind", "id"] := by
    rw [built]
    rfl
  have leads : (build stallEdits).LeadsTo ⟨0⟩ ⟨1⟩ := by
    rw [built]
    exact ⟨⟨0⟩, List.mem_singleton_self _, .single (List.mem_singleton_self _)⟩
  have astray : ¬ (build stallEdits).LeadsTo ⟨1⟩ ⟨1⟩ := by
    rw [built]
    rintro ⟨root, member, _⟩
    exact List.not_mem_nil member
  refine ⟨leads, astray, ?_, (byRouter _ _ _).1.mpr astray, ?_⟩
  · apply ((byRouter _ _ _).2 leads).missing_iff "id" |>.mpr
    rw [names]
    exact ⟨["kind"], [], rfl, .inr rfl, by simp [Entries.Lacks, List.lookup_cons]⟩
  · rw [(byOwner _ _).2 _ leads]
    apply ((byRouter _ _ _).2 leads).succeeds_iff.mpr
    rw [names]
    simp [Entries.Lacks, List.lookup_cons]

end Hierarchy

end RouteTree
