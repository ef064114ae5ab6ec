import RouteTree.Proofs.Hierarchy.Constructed
import RouteTree.Proofs.Pattern.Matching
import RouteTree.Proofs.Selection.Walk
import Mathlib.Data.List.Forall2

/-! # No segment is lost

The routes of a chain divide the segments that were offered to the first of them: each spells the
block that its pattern expects, and what is left over stands after the last block. Nothing is left
over exactly when the last route ends the address. `Accounts` holds what a chain says about the
segments; every step of a walk keeps it.
-/

namespace RouteTree

/-- A route may end an address if it has no pattern, if it does not care about slashes, or if it
agrees with the address about them. -/
theorem Route.endsWith_eq_true_iff {route : Route} {trailingSlash : Bool} :
    route.endsWith trailingSlash = true ↔ route.pattern = none ∨ route.slashMustMatch = false ∨
      ∃ pattern, route.pattern = some pattern ∧ pattern.trailingSlash = trailingSlash := by
  rw [Route.endsWith]
  cases route.pattern <;> simp

/-- The block that a route takes from the segments that it admits. -/
theorem Route.Admits.spells {route : Route} {arrival : Arrival} {segments values : List String}
    {params : Params} (admits : route.Admits arrival segments values params) :
    Segment.Spells route.expected (segments.take route.expected.length) values :=
  Route.captures?_eq_some_iff.mp admits.captured

namespace Hierarchy

variable {hierarchy : Hierarchy} {arrival : Arrival} {id : RouteId} {segments : List String}
  {first last : Selection} {others above : List Selection} {blocks : List (List String)}
  {rest : List String}

/-- How a chain of selections, the last of which is `last`, accounts for the segments offered to the
route where it starts: `blocks` are the segments of its routes, `rest` those that are left over. -/
structure Accounts (hierarchy : Hierarchy) (arrival : Arrival) (id : RouteId)
    (segments : List String) (above : List Selection) (last : Selection)
    (blocks : List (List String)) (rest : List String) : Prop where
  /-- The first selection is that of the route itself. -/
  starts : (above ++ [last]).head?.map Selection.route = some id
  /-- Every other selected route is a child of the one before. -/
  descends : ((above ++ [last]).map Selection.route).IsChain
    fun parent child => child ∈ hierarchy.children parent
  /-- All routes but the last hand segments on. -/
  inner : ∀ selection ∈ above, selection.kind = .inner
  closing : last.kind = .index ∨ last.kind = .error
  segments_eq : segments = blocks.flatten ++ rest
  /-- Every route spells its block with its pattern and captures the values of its selection. -/
  spelled : List.Forall₂ (fun selection block => ∃ route,
    hierarchy.route? selection.route = some route ∧ selection.pattern = route.pattern ∧
      Segment.Spells route.expected block selection.values) (above ++ [last]) blocks
  rest_eq_nil_iff : rest = [] ↔ last.kind = .index
  /-- Only a route with an outlet answers for segments that are left over. -/
  outlet : last.kind = .error → ∀ route, hierarchy.route? last.route = some route →
    route.outlet.isNull = false
  /-- A route that ends the address agrees with it about a trailing slash, if it has to. -/
  slash : last.kind = .index → ∀ route, hierarchy.route? last.route = some route →
    route.pattern = none ∨ route.slashMustMatch = false ∨
      ∃ pattern, route.pattern = some pattern ∧ pattern.trailingSlash = arrival.trailingSlash
  /-- A route that ends the address below another one has a pattern. -/
  patterned : last.kind = .index → above ≠ [] →
    ∀ route, hierarchy.route? last.route = some route → route.pattern.isSome = true

section Steps

variable {node : Node} {values : List String} {params : Params}
  (found : hierarchy.node? id = some node)
  (admits : node.route.Admits arrival segments values params)
include found admits

/-- A route that nothing is left over for accounts for all segments by itself. -/
theorem Accounts.of_index (done : node.route.leftover segments = [])
    (ends : node.route.endsWith arrival.trailingSlash = true) :
    Accounts hierarchy arrival id segments []
      (node.route.selection id arrival values params .index)
      [segments.take node.route.expected.length] [] where
  starts := rfl
  descends := .singleton _
  inner := by simp
  closing := .inl rfl
  segments_eq := by
    rw [node.route.leftover_eq_drop] at done
    have whole := List.take_append_drop node.route.expected.length segments
    rw [done] at whole
    simpa using whole.symm
  spelled := .cons ⟨node.route, route?_of_node? found, rfl, admits.spells⟩ .nil
  rest_eq_nil_iff := by simp [Route.selection]
  outlet := by simp [Route.selection]
  slash := by
    intro _ route present
    obtain rfl := Option.some.inj ((route?_of_node? found).symm.trans present)
    exact Route.endsWith_eq_true_iff.mp ends
  patterned := by simp

/-- A route that answers with its outlet leaves segments over. -/
theorem Accounts.of_error (more : node.route.leftover segments ≠ [])
    (outlet : node.route.outlet.isNull = false) :
    Accounts hierarchy arrival id segments []
      (node.route.selection id arrival values params .error)
      [segments.take node.route.expected.length] (node.route.leftover segments) where
  starts := rfl
  descends := .singleton _
  inner := by simp
  closing := .inr rfl
  segments_eq := by simp [node.route.leftover_eq_drop]
  spelled := .cons ⟨node.route, route?_of_node? found, rfl, admits.spells⟩ .nil
  rest_eq_nil_iff := by simpa [Route.selection] using more
  outlet := by
    intro _ route present
    obtain rfl := Option.some.inj ((route?_of_node? found).symm.trans present)
    exact outlet
  slash := by simp [Route.selection]
  patterned := by simp

/-- A route puts its block in front of the blocks of a child. -/
theorem Accounts.of_inner {child : RouteId} (more : node.route.leftover segments ≠ [])
    (listed : child ∈ node.children)
    (onward : Accounts hierarchy arrival child (node.route.leftover segments) above last blocks
      rest) :
    Accounts hierarchy arrival id segments
      (node.route.selection id arrival values params .inner :: above) last
      (segments.take node.route.expected.length :: blocks) rest where
  starts := rfl
  descends := by
    have below := onward.descends
    have starts := onward.starts
    obtain ⟨next, tail, chain⟩ := List.exists_cons_of_ne_nil (List.append_ne_nil_of_right_ne_nil
      above (List.cons_ne_nil last []))
    rw [chain] at below starts
    rw [List.cons_append, List.map_cons, chain, List.map_cons]
    refine .cons_cons ?_ below
    obtain rfl : next.route = child := by simpa using starts
    simpa [Route.selection, children, found] using listed
  inner := by
    intro selection member
    rcases List.mem_cons.mp member with rfl | later
    · rfl
    · exact onward.inner selection later
  closing := onward.closing
  segments_eq := by
    rw [List.flatten_cons, List.append_assoc, ← onward.segments_eq, node.route.leftover_eq_drop,
      List.take_append_drop]
  spelled := .cons ⟨node.route, route?_of_node? found, rfl, admits.spells⟩ onward.spelled
  rest_eq_nil_iff := onward.rest_eq_nil_iff
  outlet := onward.outlet
  slash := onward.slash
  patterned := by
    intro ends _ route present
    by_cases direct : above = []
    · -- The child ends the address by itself, so its block is all that was handed on to it.
      subst direct
      obtain ⟨other, found', spells⟩ : ∃ other, hierarchy.route? last.route = some other ∧
          ∃ block, blocks = [block] ∧ Segment.Spells other.expected block last.values := by
        cases onward.spelled with
        | cons here tail =>
          cases tail
          obtain ⟨other, found', _, spells⟩ := here
          exact ⟨other, found', _, rfl, spells⟩
      obtain rfl := Option.some.inj (found'.symm.trans present)
      obtain ⟨block, rfl, spells⟩ := spells
      have whole := onward.segments_eq
      rw [onward.rest_eq_nil_iff.mpr ends, List.append_nil, List.flatten_singleton] at whole
      rw [whole] at more
      cases pattern : other.pattern with
      | none =>
        have empty := spells.length_eq
        rw [Route.expected, pattern] at empty
        exact absurd (List.eq_nil_of_length_eq_zero empty) more
      | some pattern => rfl
    · exact onward.patterned ends direct route present

end Steps

/-- The selections of a walk account for the segments that it was offered. -/
theorem Walk.accounts (walk : Walk hierarchy arrival id segments first others) :
    ∃ above last blocks rest, first :: others = above ++ [last] ∧
      Accounts hierarchy arrival id segments above last blocks rest := by
  induction walk with
  | index found admits done ends =>
    exact ⟨[], _, _, _, rfl, .of_index found admits done ends⟩
  | error found admits more outlet =>
    exact ⟨[], _, _, _, rfl, .of_error found admits more outlet⟩
  | inner found admits more listed onward ih =>
    obtain ⟨above, last, blocks, rest, chain, accounts⟩ := ih
    refine ⟨_ :: above, last, _ :: blocks, rest, ?_, .of_inner found admits more listed accounts⟩
    rw [chain, List.cons_append]

/-- Whatever chain a route of a hierarchy gives accounts for the segments that were offered. -/
theorem select_accounts {edits : List Edit}
    (selected : ((build edits).select id arrival segments).result = .ok (.chain first others)) :
    ∃ above last blocks rest, first :: others = above ++ [last] ∧
      Accounts (build edits) arrival id segments above last blocks rest :=
  ((forest_build edits).walk_of_select selected).accounts

/-! ### A frame that answers for the pages it does not have -/

def groupRoute : Route :=
  ⟨none, none, none, none, .null, true⟩

def memberRoute : Route :=
  ⟨some ⟨[.literal "users", .parameter "id"], ["id"], [], true, false⟩, none, none, none,
    .text "frame", true⟩

def editRoute : Route :=
  ⟨some ⟨[.literal "edit"], [], [], true, true⟩, none, none, none, .null, true⟩

def memberEdits : List Edit :=
  [.router "" true,
    .route ⟨none, none, none, none, .null, true⟩,
    .route ⟨some "/users/\x7bid\x7d", none, none, none, .text "frame", true⟩,
    .route ⟨some "/edit/", none, none, none, .null, true⟩,
    .append (.route ⟨1⟩) [⟨2⟩],
    .append (.route ⟨0⟩) [⟨1⟩],
    .append (.router ⟨0⟩) [⟨0⟩]]

def memberHierarchy : Hierarchy :=
  { nodes := #[⟨groupRoute, .root ⟨0⟩, [⟨1⟩]⟩, ⟨memberRoute, .below ⟨0⟩, [⟨2⟩]⟩,
      ⟨editRoute, .below ⟨1⟩, []⟩]
    routers := #[⟨⟨"", true⟩, [⟨0⟩]⟩] }

theorem build_memberEdits : build memberEdits = memberHierarchy := by
  have member : Pattern.parse "/users/\x7bid\x7d" =
      .ok ⟨[.literal "users", .parameter "id"], ["id"], [], true, false⟩ :=
    Pattern.parse_eq_ok_iff.mpr (by decide)
  have edit : Pattern.parse "/edit/" = .ok ⟨[.literal "edit"], [], [], true, true⟩ :=
    Pattern.parse_eq_ok_iff.mpr (by decide)
  simp only [build, editAll, memberEdits, List.foldl_cons, List.foldl_nil, Hierarchy.edit,
    Route.ofSpec, RouteSpec.pattern, member, edit]
  rfl

/-- A request without a query for a path that does not end with a slash. -/
def plainArrival : Arrival :=
  ⟨.null, .query .empty, false⟩

def groupSelection : Selection :=
  groupRoute.selection ⟨0⟩ plainArrival [] (.dict []) .inner

def memberSelection : Selection :=
  memberRoute.selection ⟨1⟩ plainArrival ["7"] (.dict [("id", .text "7")]) .error

theorem select_accounts_unknown_page :
    ((build memberEdits).select ⟨0⟩ plainArrival ["users", "7", "delete"]).result =
        .ok (.chain groupSelection [memberSelection]) ∧
      ∃ above last blocks rest, [groupSelection, memberSelection] = above ++ [last] ∧
        Accounts (build memberEdits) plainArrival ⟨0⟩ ["users", "7", "delete"] above last blocks
          rest :=
  have selected : ((build memberEdits).select ⟨0⟩ plainArrival ["users", "7", "delete"]).result =
      .ok (.chain groupSelection [memberSelection]) := by
    rw [build_memberEdits]
    rfl
  ⟨selected, select_accounts selected⟩

end Hierarchy

end RouteTree
