import RouteTree.Proofs.Hierarchy.Reslashing
import RouteTree.Proofs.Link.Decoding
import RouteTree.Proofs.Link.Stability
import RouteTree.Proofs.Selection.Comparing
import RouteTree.Proofs.Selection.Resembling

/-! # Slashes at the start of patterns do not count

Two hierarchies that differ by slashes at the start of patterns are searched side by side. The same
routes stand at the same places, so a traversal of one and a traversal of the other take the same
steps; `Forest.select_resembles` is the induction downwards. Links are put together from patterns
without the flag, below the same mounts and along the same lineages.
-/

namespace RouteTree

/-- Filling in patterns one after another does not look at the slashes at their starts. -/
theorem Link.ofPatterns_unslashed (arguments : Entries) (written : List String)
    (trailingSlash : Bool) (patterns : List Pattern) :
    ofPatterns arguments written trailingSlash (patterns.map Pattern.unslashed) =
      ofPatterns arguments written trailingSlash patterns := by
  induction patterns generalizing written trailingSlash with
  | nil => rfl
  | cons pattern rest ih =>
    simp only [List.map_cons, ofPatterns, ih]
    rfl

/-- Reports that differ, if at all, by slashes at the start of the patterns of a chain. -/
structure Dispatch.Reslashed (report report' : Dispatch) : Prop where
  success : report'.success = report.success
  redirect : report'.redirect = report.redirect
  selections :
    report'.selections.map Selection.unslashed = report.selections.map Selection.unslashed

theorem Dispatch.reslashed_ofOutcome {outcome outcome' : Outcome}
    (reslashed : Outcome.Reslashed outcome outcome') :
    Reslashed (ofOutcome outcome) (ofOutcome outcome') := by
  cases reslashed with
  | noMatch => exact ⟨rfl, rfl, rfl⟩
  | redirect target => exact ⟨rfl, rfl, rfl⟩
  | chain same => exact ⟨rfl, rfl, same⟩

namespace Hierarchy

variable {before after : Hierarchy} {id : RouteId} {arrival : Arrival} {segments : List String}

/-- Routes that are tried in the same order answer alike if each of them does. -/
theorem selectAmong_resembles {ids : List RouteId}
    (each : ∀ id ∈ ids, Run.Resembles Outcome.Reslashed (before.select id arrival segments)
      (after.select id arrival segments)) :
    Run.Resembles Outcome.Reslashed (before.selectAmong arrival segments ids)
      (after.selectAmong arrival segments ids) := by
  induction ids with
  | nil => exact .pure .noMatch
  | cons id ids ih =>
    rw [selectAmong_cons, selectAmong_cons]
    refine (each id List.mem_cons_self).bind fun outcome outcome' reslashed => ?_
    cases reslashed with
    | noMatch => exact ih fun other listed => each other (List.mem_cons_of_mem id listed)
    | redirect target => exact .pure (.redirect target)
    | chain same => exact .pure (.chain same)

namespace Reslashed

variable (reslashed : Reslashed before after) (constructed : before.Constructed)
  (constructed' : after.Constructed)
include reslashed constructed constructed'

/-- Under every handle stands the same route, apart from the slash at the start of its pattern. -/
theorem route?_unslashed (id : RouteId) :
    (after.route? id).map Route.unslashed = (before.route? id).map Route.unslashed := by
  have related := reslashed.route? id
  have proper {route : Route} (found : before.route? id = some route) :=
    constructed.wellFormed found
  have proper' {route : Route} (found : after.route? id = some route) :=
    constructed'.wellFormed found
  generalize before.route? id = found at related proper
  generalize after.route? id = found' at related proper'
  cases related with
  | none => rfl
  | some same => exact congrArg some (same.unslashed_eq (proper rfl) (proper' rfl))

theorem select_resembles (forest : before.Forest) (forest' : after.Forest) :
    Run.Resembles Outcome.Reslashed (before.select id arrival segments)
      (after.select id arrival segments) := by
  induction id using forest.below_wellFounded.induction generalizing segments with
  | _ id ih =>
    have same := reslashed.route?_unslashed constructed constructed' id
    have listed : after.children id = before.children id := reslashed.members (.route id)
    cases found : before.route? id with
    | none =>
      rw [found, Option.map_none, Option.map_eq_none_iff] at same
      rw [forest.select_of_route?_eq_none found, forest'.select_of_route?_eq_none same]
      exact .pure .noMatch
    | some route =>
      rw [found, Option.map_some, Option.map_eq_some_iff] at same
      obtain ⟨route', found', same⟩ := same
      rw [forest.select_of_route? found, forest'.select_of_route? found', listed]
      exact Route.answer_resembles same fun rest => selectAmong_resembles fun child member =>
        ih child (forest.above_of_mem_children member)

theorem selectPath_resembles (forest : before.Forest) (forest' : after.Forest) (router : RouterId)
    (context : Value) (path : String) :
    Run.Resembles Outcome.Reslashed (before.selectPath router context path)
      (after.selectPath router context path) := by
  have configured : (after.router? router).elim .unmounted Router.config =
      (before.router? router).elim .unmounted Router.config := by
    rw [config_eq_getD, config_eq_getD, reslashed.config?]
  have roots : after.roots router = before.roots router := reslashed.members (.router router)
  simp only [selectPath, configured]
  split
  · exact (Run.Resembles.refl _).bind fun _ _ _ => .pure .noMatch
  · next address _ =>
    have among : Run.Resembles Outcome.Reslashed (before.selectAddress router context address)
        (after.selectAddress router context address) := by
      change Run.Resembles _ (before.selectAmong (.ofAddress context address) address.segments
          (before.roots router)) (after.selectAmong (.ofAddress context address) address.segments
          (after.roots router))
      rw [roots]
      exact selectAmong_resembles fun root _ =>
        reslashed.select_resembles constructed constructed' forest forest'
    refine among.bind fun outcome outcome' found => ?_
    cases found with
    | noMatch => exact (Run.Resembles.refl _).bind fun _ _ _ => .pure .noMatch
    | redirect target => exact .pure (.redirect target)
    | chain same => exact .pure (.chain same)

theorem dispatch_resembles (forest : before.Forest) (forest' : after.Forest) (router : RouterId)
    (context : Value) (path : String) :
    Run.Resembles Dispatch.Reslashed (before.dispatch router context path)
      (after.dispatch router context path) := by
  refine (reslashed.selectPath_resembles constructed constructed' forest forest' router context
    path).bind fun outcome outcome' found => ?_
  have handled : Selection.handleAll outcome'.selections =
      Selection.handleAll outcome.selections := by
    rw [← Selection.handleAll_unslashed, found.selections, Selection.handleAll_unslashed]
  rw [handled]
  exact (Run.Resembles.refl _).bind fun _ _ _ => .pure (Dispatch.reslashed_ofOutcome found)

/-! ## Links -/

theorem map_patterns_unslashed (id : RouteId) :
    (after.patterns id).map Pattern.unslashed = (before.patterns id).map Pattern.unslashed := by
  have swap (found : Option Route) : (found.bind Route.pattern).map Pattern.unslashed =
      (found.map Route.unslashed).bind Route.pattern := by
    cases found <;> rfl
  rw [patterns_eq_filterMap_route?, patterns_eq_filterMap_route?, List.map_filterMap,
    List.map_filterMap, reslashed.lineage_eq]
  refine List.filterMap_congr fun above _ => ?_
  rw [swap, swap, reslashed.route?_unslashed constructed constructed']

theorem link_eq (router : RouterId) (id : RouteId) (arguments : Entries) :
    after.link router id arguments = before.link router id arguments := by
  have parts : after.linkParts id arguments = before.linkParts id arguments := by
    rw [linkParts, ← Link.ofPatterns_unslashed,
      reslashed.map_patterns_unslashed constructed constructed', Link.ofPatterns_unslashed,
      linkParts]
  rw [link, link, reslashed.owner?_eq, parts, mount_eq_config?, mount_eq_config?,
    reslashed.config?]

end Reslashed

/-- What it means that two hierarchies answer alike under the same handles. Selections, reports and
messages may show a pattern with another slash at its start. -/
structure AnswersAlike (before after : Hierarchy) : Prop where
  select : ∀ id arrival segments, Run.Resembles Outcome.Reslashed
    (before.select id arrival segments) (after.select id arrival segments)
  selectPath : ∀ router context path, Run.Resembles Outcome.Reslashed
    (before.selectPath router context path) (after.selectPath router context path)
  dispatch : ∀ router context path, Run.Resembles Dispatch.Reslashed
    (before.dispatch router context path) (after.dispatch router context path)
  /-- Links are the same texts, and no link is given for the same reason. -/
  link : ∀ router id arguments, after.link router id arguments = before.link router id arguments
  linkByOwner : ∀ id arguments, after.linkByOwner id arguments = before.linkByOwner id arguments

/-- Slashes at the start of patterns do not count: calls that differ by them build hierarchies that
differ by them, and such hierarchies answer alike. -/
theorem leading_slashes_are_irrelevant {edits edits' : List Edit} :
    (List.Forall₂ Edit.Reslashed edits edits' → Reslashed (build edits) (build edits')) ∧
      (Reslashed (build edits) (build edits') → AnswersAlike (build edits) (build edits')) := by
  refine ⟨reslashed_build, fun reslashed => ?_⟩
  have forest := forest_build edits
  have forest' := forest_build edits'
  have constructed := constructed_build edits
  have constructed' := constructed_build edits'
  have links := reslashed.link_eq constructed constructed'
  exact
    { select := fun _ _ _ => reslashed.select_resembles constructed constructed' forest forest'
      selectPath := reslashed.selectPath_resembles constructed constructed' forest forest'
      dispatch := reslashed.dispatch_resembles constructed constructed' forest forest'
      link := links
      linkByOwner := fun id arguments => by
        rw [linkByOwner, linkByOwner, reslashed.owner?_eq]
        cases (build edits).owner? id with
        | none => rfl
        | some router => exact links router id arguments }

/-! ### A shop with a slash less -/

/-- The calls that build the shop, with no slash at the start of the list of a kind. -/
def plainShopEdits : List Edit :=
  [.router "/shop/" true,
    .route ⟨some "find/\x7bkind\x7d?\x7bq\x7d&\x7bpage\x7d", none, none, none, .null, true⟩,
    .route ⟨some "/\x7bid\x7d/?\x7bpage\x7d&\x7btab\x7d&\x7bsort\x7d", none, none, none, .null,
      true⟩,
    .append (.route ⟨0⟩) [⟨1⟩],
    .append (.router ⟨0⟩) [⟨0⟩]]

/-- The two shops answer alike, and an item has the same link in both. -/
theorem leading_slashes_are_irrelevant_shop :
    List.Forall₂ Edit.Reslashed shopEdits plainShopEdits ∧
      Reslashed (build shopEdits) (build plainShopEdits) ∧
      AnswersAlike (build shopEdits) (build plainShopEdits) ∧
      (build plainShopEdits).link ⟨0⟩ ⟨1⟩ itemArguments =
        .ok "/shop/find/a%2Fb%3F/7/?q=x%26y&q=2&page=False" := by
  have slashed : Pattern.parse "/find/\x7bkind\x7d?\x7bq\x7d&\x7bpage\x7d" =
      .ok ⟨[.literal "find", .parameter "kind"], ["kind"], ["q", "page"], true, false⟩ :=
    Pattern.parse_eq_ok_iff.mpr (by decide)
  have plain : Pattern.parse "find/\x7bkind\x7d?\x7bq\x7d&\x7bpage\x7d" =
      .ok ⟨[.literal "find", .parameter "kind"], ["kind"], ["q", "page"], false, false⟩ :=
    Pattern.parse_eq_ok_iff.mpr (by decide)
  have same : List.Forall₂ Edit.Reslashed shopEdits plainShopEdits :=
    .cons (.same _) (.cons (.route rfl (.inr rfl) slashed plain)
      (.cons (.same _) (.cons (.same _) (.cons (.same _) .nil))))
  obtain ⟨built, answers⟩ := @leading_slashes_are_irrelevant shopEdits plainShopEdits
  have alike := answers (built same)
  refine ⟨same, built same, alike, (alike.link ⟨0⟩ ⟨1⟩ itemArguments).trans ?_⟩
  rw [build_shopEdits]
  rfl

end Hierarchy

end RouteTree
