import RouteTree.Proofs.Hierarchy.Building
import RouteTree.Proofs.Pattern.Reading
import Mathlib.Data.List.DropRight

/-! # Whatever a hierarchy holds was constructed

Routes enter a hierarchy through `Route.ofSpec` and configurations through `Config.ofMount`, and
neither changes afterwards. What these two ensure holds everywhere, above all that the patterns of
routes are well-formed.
-/

namespace RouteTree

/-! ## Mounts have one form -/

theorem dropFinalSlashes_eq_self_iff {text : List Char} :
    dropFinalSlashes text = text ↔ text.getLast? ≠ some '/' := by
  change text.rdropWhile (· == '/') = text ↔ _
  rw [List.rdropWhile_eq_self_iff]
  cases text with
  | nil => simp
  | cons first rest => simp [List.getLast?_eq_some_getLast]

theorem getLast?_dropFinalSlashes (text : List Char) :
    (dropFinalSlashes text).getLast? ≠ some '/' :=
  dropFinalSlashes_eq_self_iff.mp (List.rdropWhile_idempotent (· == '/') text)

/-- A mount is empty or starts with a slash, and it ends with none. -/
theorem normalMount_form (text : List Char) :
    (normalMount text = [] ∨ ∃ rest, normalMount text = '/' :: rest) ∧
      (normalMount text).getLast? ≠ some '/' := by
  have last := getLast?_dropFinalSlashes text
  unfold normalMount
  split
  · simp
  · next rest same => exact ⟨.inr ⟨rest, rfl⟩, same ▸ last⟩
  · next present _ =>
    refine ⟨.inr ⟨_, rfl⟩, ?_⟩
    rwa [List.getLast?_cons_of_ne_nil present]

theorem normalMount_normalMount (text : List Char) :
    normalMount (normalMount text) = normalMount text := by
  obtain ⟨first, last⟩ := normalMount_form text
  rw [normalMount, dropFinalSlashes_eq_self_iff.mpr last]
  rcases first with empty | ⟨rest, same⟩
  · rw [empty]
  · rw [same]
    rfl

/-- A mount that was brought into its form once stays as it is. -/
theorem Config.ofMount_mount (mount : String) (decodesSegments : Bool) :
    ofMount (ofMount mount decodesSegments).mount decodesSegments =
      ofMount mount decodesSegments := by
  simp only [ofMount, String.toList_ofList, normalMount_normalMount]

/-! ## Routes -/

theorem RouteSpec.pattern_of_parse {spec : RouteSpec} {text : String} {pattern : Pattern}
    (written : spec.path = some text) (parsed : Pattern.parse text = .ok pattern) :
    spec.pattern = .ok (some pattern) := by
  simp only [RouteSpec.pattern, written, parsed]
  rfl

namespace Route

/-- What is constructed once the pattern has been read. -/
theorem ofSpec_of_read {spec : RouteSpec} {pattern : Option Pattern}
    (read : spec.pattern = .ok pattern) :
    ofSpec spec =
      if spec.extractor.isSome && !pattern.any Pattern.hasParameters then .error .uselessExtractor
      else .ok ⟨pattern, spec.guard, spec.extractor, spec.handler, spec.outlet,
        spec.slashMustMatch⟩ := by
  rw [ofSpec, read]
  rfl

theorem ofSpec_eq_ok_iff {spec : RouteSpec} {route : Route} :
    ofSpec spec = .ok route ↔ spec.pattern = .ok route.pattern ∧
      (spec.extractor.isSome → route.pattern.any Pattern.hasParameters) ∧
        route = { route with
          guard := spec.guard
          extractor := spec.extractor
          handler := spec.handler
          outlet := spec.outlet
          slashMustMatch := spec.slashMustMatch } := by
  obtain ⟨pattern, guard, extractor, handler, outlet, slashMustMatch⟩ := route
  cases read : spec.pattern with
  | error error => simp [ofSpec, read, bind, Except.bind]
  | ok found =>
    rw [ofSpec_of_read read, Except.ok.injEq]
    split
    · next useless =>
      simp only [Bool.and_eq_true, Bool.not_eq_true'] at useless
      simp only [reduceCtorEq, false_iff, not_and]
      rintro rfl useful
      rw [useful useless.1] at useless
      simp at useless
    · next useful =>
      simp only [Bool.and_eq_true, Bool.not_eq_true', not_and, Bool.not_eq_false] at useful
      simp only [Except.ok.injEq, mk.injEq, true_and]
      constructor
      · rintro ⟨rfl, rfl, rfl, rfl, rfl, rfl⟩
        exact ⟨rfl, useful, rfl, rfl, rfl, rfl, rfl⟩
      · rintro ⟨rfl, _, rfl, rfl, rfl, rfl, rfl⟩
        exact ⟨rfl, rfl, rfl, rfl, rfl, rfl⟩

/-- The pattern of a constructed route is well-formed. -/
theorem wellFormed_of_ofSpec {spec : RouteSpec} {route : Route}
    (success : ofSpec spec = .ok route) : ∀ pattern ∈ route.pattern, pattern.WellFormed := by
  intro pattern present
  have read := (ofSpec_eq_ok_iff.mp success).1
  rw [Option.mem_def.mp present, RouteSpec.pattern] at read
  cases path : spec.path with
  | none => rw [path] at read; simp at read
  | some text =>
    cases parsed : Pattern.parse text with
    | error error => simp [path, parsed, Except.mapError, Except.map] at read
    | ok found =>
      obtain rfl : found = pattern := by
        simpa [path, parsed, Except.mapError, Except.map] using read
      exact (Pattern.parse_eq_ok_iff.mp parsed).1

end Route

/-! ## Hierarchies -/

namespace Hierarchy

/-- Every route and every configuration is what its constructor gave. -/
structure Constructed (hierarchy : Hierarchy) : Prop where
  routes : ∀ id route, hierarchy.route? id = some route → ∃ spec, Route.ofSpec spec = .ok route
  configs : ∀ id config, hierarchy.config? id = some config →
    ∃ mount decodesSegments, config = .ofMount mount decodesSegments

theorem constructed_preserved : Preserved Constructed where
  addRoute := by
    intro hierarchy spec route constructed success
    refine ⟨fun id other found => ?_, constructed.configs⟩
    rw [route?_addRoute] at found
    split at found
    · obtain rfl := Option.some.inj found
      exact ⟨spec, success⟩
    · exact constructed.routes id other found
  addRouter := by
    intro hierarchy mount decodesSegments constructed
    refine ⟨constructed.routes, fun id config found => ?_⟩
    rw [config?_addRouter] at found
    split at found
    · exact ⟨mount, decodesSegments, (Option.some.inj found).symm⟩
    · exact constructed.configs id config found
  attach := by
    intro hierarchy target batch constructed _ _ _ _ _
    exact ⟨by simpa using constructed.routes, by simpa using constructed.configs⟩

theorem constructed_build (edits : List Edit) : (build edits).Constructed :=
  constructed_preserved.build ⟨by simp [route?, node?, empty], by simp [config?, router?, empty]⟩
    edits

theorem Constructed.wellFormed {hierarchy : Hierarchy} (constructed : hierarchy.Constructed)
    {id : RouteId} {route : Route} (found : hierarchy.route? id = some route) :
    ∀ pattern ∈ route.pattern, pattern.WellFormed := by
  obtain ⟨spec, success⟩ := constructed.routes id route found
  exact Route.wellFormed_of_ofSpec success

end Hierarchy

end RouteTree
