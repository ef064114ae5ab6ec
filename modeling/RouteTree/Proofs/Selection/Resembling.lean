import RouteTree.Proofs.Pattern.LeadingSlash
import RouteTree.Proofs.Selection.Answer

/-! # Runs of routes that are shown differently

Two routes may differ in nothing but the slash at the start of their patterns. Whatever a step does
is then the same for both, except that a selection carries the pattern and that a redirect is logged
with the route as it is shown. `Run.Resembles` relates two such runs and is kept by every way in
which runs are put together, so that a traversal keeps it too.
-/

namespace RouteTree

/-- What a message says apart from how it shows a route. -/
def Record.unshown : Record → Record
  | .redirectRequested route _ target => .redirectRequested route "" target
  | .linked _ link => .linked "" link
  | .outsideMount path mount => .outsideMount path mount
  | .unmatched path => .unmatched path

namespace Run

variable {α β γ δ : Type}

/-- The same failure, or two values that are related. -/
inductive Agree (alike : α → β → Prop) : Except Failure α → Except Failure β → Prop
  | failure (failure : Failure) : Agree alike (.error failure) (.error failure)
  | value {first : α} {second : β} (same : alike first second) :
      Agree alike (.ok first) (.ok second)

/-- Two runs that make the same calls, log the same messages apart from how routes are shown, and
come to results that agree. -/
structure Resembles (alike : α → β → Prop) (run : Run α) (other : Run β) : Prop where
  calls : other.calls = run.calls
  records : other.records.map Record.unshown = run.records.map Record.unshown
  result : Agree alike run.result other.result

namespace Resembles

theorem pure {alike : α → β → Prop} {first : α} {second : β} (same : alike first second) :
    Resembles alike (Pure.pure first) (Pure.pure second) :=
  ⟨rfl, rfl, .value same⟩

theorem refl (run : Run α) : Resembles Eq run run := by
  refine ⟨rfl, rfl, ?_⟩
  cases run.result with
  | error failure => exact .failure failure
  | ok value => exact .value rfl

theorem log {record other : Record} (same : other.unshown = record.unshown) :
    Resembles Eq (Run.log record) (Run.log other) :=
  ⟨rfl, congrArg (fun kept => [kept]) same, .value rfl⟩

/-- Runs that resemble each other may be followed by runs that do. -/
theorem bind {alike : α → β → Prop} {alike' : γ → δ → Prop} {run : Run α} {other : Run β}
    (first : Resembles alike run other) {next : α → Run γ} {next' : β → Run δ}
    (second : ∀ value value', alike value value' → Resembles alike' (next value) (next' value')) :
    Resembles alike' (run >>= next) (other >>= next') := by
  obtain ⟨calls, records, result⟩ := run
  obtain ⟨calls', records', result'⟩ := other
  obtain ⟨sameCalls, sameRecords, agree⟩ := first
  simp only at sameCalls sameRecords agree
  cases agree with
  | failure failure =>
    rw [bind_of_error rfl, bind_of_error rfl]
    exact ⟨sameCalls, sameRecords, .failure failure⟩
  | value same =>
    have onward := second _ _ same
    rw [bind_of_ok rfl, bind_of_ok rfl]
    refine ⟨?_, ?_, onward.result⟩
    · simp only [sameCalls, onward.calls]
    · simp only [List.map_append, sameRecords, onward.records]

end Resembles

end Run

/-! ## What is found -/

/-- The same selection without the slash at the start of its pattern. -/
def Selection.unslashed (selection : Selection) : Selection :=
  { selection with pattern := selection.pattern.map Pattern.unslashed }

/-- Outcomes that differ, if at all, by slashes at the start of the patterns of a chain. -/
inductive Outcome.Reslashed : Outcome → Outcome → Prop
  | noMatch : Reslashed .noMatch .noMatch
  | redirect (target : String) : Reslashed (.redirect target) (.redirect target)
  | chain {first first' : Selection} {rest rest' : List Selection}
      (same : (first' :: rest').map Selection.unslashed =
        (first :: rest).map Selection.unslashed) :
      Reslashed (.chain first rest) (.chain first' rest')

theorem Outcome.Reslashed.selections {outcome outcome' : Outcome}
    (reslashed : Reslashed outcome outcome') :
    outcome'.selections.map Selection.unslashed = outcome.selections.map Selection.unslashed := by
  cases reslashed with
  | noMatch => rfl
  | redirect target => rfl
  | chain same => exact same

/-! ## One step -/

namespace Route

variable {route other : Route} (same : other.unslashed = route.unslashed)
include same

/-- What does not look at the slash at the start of a pattern is the same for both routes. -/
theorem congr_of_unslashed {α : Type} {read : Route → α}
    (blind : ∀ route, read route.unslashed = read route) : read other = read route := by
  rw [← blind other, same, blind]

theorem take?_congr : other.take? = route.take? :=
  congr_of_unslashed same take?_unslashed

theorem hasOutlet_congr : other.hasOutlet = route.hasOutlet :=
  congr_of_unslashed same fun _ => rfl

/-- The callbacks are those of both routes, and so is what they are given. -/
theorem extract_congr : other.extract = route.extract := by
  have extractor : other.extractor = route.extractor := congr_of_unslashed same fun _ => rfl
  have groups := congr_of_unslashed same searchGroups_unslashed
  have params := congr_of_unslashed same defaultParams_unslashed
  funext id arrival values
  rw [extract, extract, extractor, groups, params]

theorem consult_congr : other.consult = route.consult := by
  have guard : other.guard = route.guard := congr_of_unslashed same fun _ => rfl
  funext id request
  rw [consult, consult, guard]

theorem judge_resembles (id : RouteId) (arrival : Arrival) (values : List String) :
    Run.Resembles Eq (route.judge id arrival values) (other.judge id arrival values) := by
  rw [judge, judge, extract_congr same]
  refine (Run.Resembles.refl _).bind fun extracted _ => ?_
  rintro rfl
  cases extracted with
  | none => exact .pure rfl
  | some params =>
    simp only [consult_congr same]
    refine (Run.Resembles.refl _).bind fun decided _ => ?_
    rintro rfl
    cases decided with
    | proceed => exact .pure rfl
    | reject => exact .pure rfl
    | redirect target =>
      have logged : Run.Resembles Eq (Run.log (.redirectRequested id route.literal target))
          (Run.log (.redirectRequested id other.literal target)) := .log rfl
      exact logged.bind fun _ _ _ => .pure rfl

theorem selection_congr (id : RouteId) (arrival : Arrival) (values : List String) (params : Params)
    (kind : MatchKind) :
    (other.selection id arrival values params kind).unslashed =
      (route.selection id arrival values params kind).unslashed := by
  have written (route : Route) : (route.selection id arrival values params kind).unslashed =
      route.unslashed.selection id arrival values params kind := by
    simp only [selection, searchGroups_unslashed]
    rfl
  rw [written, written, same]

theorem complete_congr (id : RouteId) (arrival : Arrival) (values : List String) (params : Params)
    {outcome outcome' : Outcome} (below : Outcome.Reslashed outcome outcome') :
    Outcome.Reslashed (Tree.complete route (route.selection id arrival values params) outcome)
      (Tree.complete other (other.selection id arrival values params) outcome') := by
  have written := selection_congr same id arrival values params
  cases below with
  | noMatch =>
    rw [Tree.complete, Tree.complete, hasOutlet_congr same]
    split
    · exact .chain (congrArg (fun kept => [kept]) (written .error))
    · exact .noMatch
  | redirect target => exact .redirect target
  | chain onward => exact .chain (congrArg₂ List.cons (written .inner) onward)

/-- Steps of the two routes resemble each other if what stands below them does. -/
theorem answer_resembles {id : RouteId} {isLeaf : Bool} {arrival : Arrival} {segments : List String}
    {below below' : List String → Run Outcome}
    (onward : ∀ rest, Run.Resembles Outcome.Reslashed (below rest) (below' rest)) :
    Run.Resembles Outcome.Reslashed (route.answer id isLeaf arrival segments below)
      (other.answer id isLeaf arrival segments below') := by
  rw [answer, answer, take?_congr same]
  split
  · exact .pure .noMatch
  · next values rest taken =>
    refine (judge_resembles same id arrival values).bind fun verdict _ => ?_
    rintro rfl
    cases verdict with
    | refused => exact .pure .noMatch
    | redirect target => exact .pure (.redirect target)
    | admitted params =>
      by_cases done : rest.isEmpty
      · simp only [done, if_true]
        exact .pure (.chain (congrArg (fun kept => [kept])
          (selection_congr same id arrival values params .index)))
      · simp only [done]
        exact (onward rest).bind fun outcome outcome' reslashed =>
          .pure (complete_congr same id arrival values params reslashed)

end Route

/-- Handlers are called for selections whatever patterns these carry. -/
theorem Selection.handleAll_unslashed (selections : List Selection) :
    handleAll (selections.map Selection.unslashed) = handleAll selections := by
  induction selections with
  | nil => rfl
  | cons selection rest ih =>
    rw [List.map_cons, handleAll, handleAll, ih]
    rfl

end RouteTree
