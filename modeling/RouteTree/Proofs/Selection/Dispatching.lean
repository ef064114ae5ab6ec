import RouteTree.Proofs.Selection.Calls
import RouteTree.Proofs.Selection.Extraction

/-! # Dispatching

A dispatch is a selection and then the handlers of the chain that was found, from the root down. The
handlers of branches that were left are not among them, since a handler is called for a selection
and with what this selection carries. The first handler that fails ends the dispatch, and what was
called until then stays recorded.
-/

namespace RouteTree

/-- A call of a handler, and what the handler replies. -/
structure Handling where
  call : Call
  reply : Except CallbackError Value

/-- The call of a route's handler with a request. -/
def Handling.of (id : RouteId) (request : Request) (handler : Handler) : Handling :=
  ⟨.handler id request, handler request⟩

/-- The handler replies and does not fail. -/
def Handling.Replies (handling : Handling) : Prop :=
  ∃ value, handling.reply = .ok value

namespace Selection

variable {selections : List Selection} {before after : List Handling} {call : Call}
  {error : CallbackError}

/-- What is called for a selection, if its route has a handler. -/
def handling? (selection : Selection) : Option Handling :=
  selection.handler.map (.of selection.route selection.request)

/-- Handling one selection makes its call and no other. -/
theorem handle_eq (selection : Selection) :
    selection.handle = selection.handling?.elim (pure .null) fun handling =>
      ⟨[handling.call], [], handling.reply.mapError .callback⟩ := by
  rw [handle, handling?]
  cases selection.handler with
  | none => rfl
  | some handler =>
    change (Run.call _ >>= fun _ => Run.reply _) = _
    rw [Run.bind_of_ok rfl]
    rfl

/-- A selection without a handler is passed over. -/
theorem handleAll_cons_of_none {selection : Selection} (absent : selection.handling? = none) :
    handleAll (selection :: selections) = handleAll selections := by
  rw [handleAll, handle_eq, absent, Option.elim_none, pure_bind]

/-- Where no handler fails, all of them are called. -/
theorem handleAll_of_replies
    (replies : ∀ handling ∈ selections.filterMap handling?, handling.Replies) :
    handleAll selections =
      ⟨(selections.filterMap handling?).map Handling.call, [], .ok ()⟩ := by
  induction selections with
  | nil => rfl
  | cons selection rest ih =>
    cases present : selection.handling? with
    | none =>
      rw [List.filterMap_cons_none present] at replies ⊢
      rw [handleAll_cons_of_none present, ih replies]
    | some handling =>
      rw [List.filterMap_cons_some present] at replies ⊢
      obtain ⟨⟨value, replied⟩, onward⟩ := List.forall_mem_cons.mp replies
      rw [handleAll, handle_eq, present, Option.elim_some, replied, Run.bind_of_ok rfl, ih onward]
      rfl

/-- The first handler that fails is the last one that is called. -/
theorem handleAll_of_raises
    (split : selections.filterMap handling? = before ++ ⟨call, .error error⟩ :: after)
    (replies : ∀ handling ∈ before, handling.Replies) :
    handleAll selections =
      ⟨before.map Handling.call ++ [call], [], .error (.callback error)⟩ := by
  induction selections generalizing before with
  | nil => simp at split
  | cons selection rest ih =>
    cases present : selection.handling? with
    | none =>
      rw [List.filterMap_cons_none present] at split
      rw [handleAll_cons_of_none present, ih split replies]
    | some handling =>
      rw [List.filterMap_cons_some present] at split
      rw [handleAll, handle_eq, present, Option.elim_some]
      cases before with
      | nil =>
        obtain ⟨rfl, _⟩ := List.cons.inj split
        rw [Run.bind_of_error rfl]
        rfl
      | cons first before =>
        obtain ⟨rfl, later⟩ := List.cons.inj split
        obtain ⟨⟨value, replied⟩, onward⟩ := List.forall_mem_cons.mp replies
        rw [replied, Run.bind_of_ok rfl, ih later onward]
        rfl

/-- Handlers log nothing. -/
theorem records_handleAll (selections : List Selection) : (handleAll selections).records = [] := by
  induction selections with
  | nil => rfl
  | cons selection rest ih =>
    rw [handleAll, handle_eq]
    cases selection.handling? with
    | none => simpa using ih
    | some handling =>
      rw [Option.elim_some]
      cases replied : handling.reply with
      | error error => rw [Run.bind_of_error rfl]
      | ok value => rw [Run.bind_of_ok rfl, ih]; rfl

end Selection

namespace Hierarchy

variable {hierarchy : Hierarchy} {router : RouterId} {context : Value} {path : String}
  {first : Selection} {others : List Selection}

/-- The handler calls that a chain asks for, from the root down: one for each route that has a
handler, with the context of the caller and the parameters of the selection. -/
def handlings (hierarchy : Hierarchy) (context : Value) (selections : List Selection) :
    List Handling :=
  selections.filterMap fun selection =>
    ((hierarchy.route? selection.route).bind Route.handler).map
      (.of selection.route ⟨context, selection.params⟩)

/-- A selection carries the handler of its route and the context of the caller, so that it asks for
the call that its route does. -/
theorem Forest.handlings_eq (forest : hierarchy.Forest)
    (selected : (hierarchy.selectPath router context path).result = .ok (.chain first others)) :
    hierarchy.handlings context (first :: others) =
      (first :: others).filterMap Selection.handling? := by
  obtain ⟨config, address, root, _, _, _, walk⟩ := forest.walk_of_selectPath selected
  refine List.filterMap_congr fun selection member => ?_
  obtain ⟨node, offered, values, params, found, _, _, same⟩ := walk.exists_admits selection member
  have carried : selection.handler = node.route.handler := by rw [same]; rfl
  have asked : selection.request = ⟨context, selection.params⟩ := by rw [same]; rfl
  rw [route?_of_node? found, Option.bind_some, Selection.handling?, carried, asked]

/-- No handler is called for matching a path. -/
theorem Forest.kind_ne_handler (forest : hierarchy.Forest) :
    ∀ call ∈ (hierarchy.selectPath router context path).calls, call.kind ≠ .handler := by
  intro call member
  cases inside : Address.parse? ((hierarchy.router? router).elim .unmounted Router.config) path with
  | none =>
    rw [(selectPath_of_outside context inside).1] at member
    contradiction
  | some address =>
    rw [(selectPath_of_address context inside).1] at member
    have slots := slots_selectAmong_sublist fun id (_ : id ∈ hierarchy.roots router) =>
      forest.slots_select_sublist id (.ofAddress context address) address.segments
    exact (Call.mem_flatMap_slotsOf_iff.mp (slots.subset (List.mem_map_of_mem member))).2

/-- Where nothing was selected because a callback failed, no handler is called. -/
theorem dispatch_of_failed {failure : Failure}
    (failed : (hierarchy.selectPath router context path).result = .error failure) :
    hierarchy.dispatch router context path =
      ⟨(hierarchy.selectPath router context path).calls,
        (hierarchy.selectPath router context path).records, .error failure⟩ :=
  Run.bind_of_error failed _

/-- A selection is reported as soon as its handlers have replied. -/
theorem dispatch_of_outcome {outcome : Outcome}
    (selected : (hierarchy.selectPath router context path).result = .ok outcome) :
    hierarchy.dispatch router context path =
      ⟨(hierarchy.selectPath router context path).calls ++
          (Selection.handleAll outcome.selections).calls,
        (hierarchy.selectPath router context path).records,
        (Selection.handleAll outcome.selections).result.map fun _ => .ofOutcome outcome⟩ := by
  have records := Selection.records_handleAll outcome.selections
  rw [dispatch, Run.bind_of_ok selected, bind_pure_comp, Run.map_eq, records, List.append_nil]

/-- Dispatches agree where the selections do. -/
theorem dispatch_congr {after : Hierarchy} {router' : RouterId} {context' : Value} {path' : String}
    (calls : (after.selectPath router' context' path').calls =
      (hierarchy.selectPath router context path).calls)
    (result : (after.selectPath router' context' path').result =
      (hierarchy.selectPath router context path).result) :
    (after.dispatch router' context' path').calls =
        (hierarchy.dispatch router context path).calls ∧
      (after.dispatch router' context' path').result =
        (hierarchy.dispatch router context path).result := by
  cases selected : (hierarchy.selectPath router context path).result with
  | error failure =>
    rw [dispatch_of_failed selected, dispatch_of_failed (result.trans selected)]
    exact ⟨calls, rfl⟩
  | ok outcome =>
    rw [dispatch_of_outcome selected, dispatch_of_outcome (result.trans selected), calls]
    exact ⟨rfl, rfl⟩

/-- What is asked of a dispatch, beside the selection for the same path. -/
structure Dispatches (hierarchy : Hierarchy) (context : Value) (selecting : Run Outcome)
    (dispatching : Run Dispatch) : Prop where
  /-- All handler calls are made by the dispatch itself. -/
  noHandler : ∀ call ∈ selecting.calls, call.kind ≠ .handler
  records : dispatching.records = selecting.records
  failed : ∀ failure, selecting.result = .error failure →
    dispatching.calls = selecting.calls ∧ dispatching.result = .error failure
  unmatched : selecting.result = .ok .noMatch →
    dispatching.calls = selecting.calls ∧ dispatching.result = .ok ⟨false, none, []⟩
  /-- The target may be the empty text. -/
  redirected : ∀ target, selecting.result = .ok (.redirect target) →
    dispatching.calls = selecting.calls ∧ dispatching.result = .ok ⟨false, some target, []⟩
  /-- If no handler of a chain fails, all of them are called and the chain is reported. -/
  handled : ∀ first others, selecting.result = .ok (.chain first others) →
    (∀ handling ∈ hierarchy.handlings context (first :: others), handling.Replies) →
    dispatching.calls = selecting.calls ++
        (hierarchy.handlings context (first :: others)).map Handling.call ∧
      dispatching.result = .ok ⟨true, none, first :: others⟩
  /-- The first handler that fails is the last one that is called, and its error leaves the
  dispatch. -/
  raised : ∀ first others, selecting.result = .ok (.chain first others) →
    ∀ before call error after,
      hierarchy.handlings context (first :: others) = before ++ ⟨call, .error error⟩ :: after →
      (∀ handling ∈ before, handling.Replies) →
      dispatching.calls = selecting.calls ++ before.map Handling.call ++ [call] ∧
        dispatching.result = .error (.callback error)
  /-- A report tells a chain, a redirect and no match apart. -/
  reported : ∀ report, dispatching.result = .ok report → ∃ outcome,
    selecting.result = .ok outcome ∧ (report.success = true ↔ outcome.selections ≠ []) ∧
      report.selections = outcome.selections ∧ report.redirect = outcome.target?

/-- A dispatch is the selection for the same path and then the handlers of the chain, each with the
context of the caller and the parameters of its selection, from the root down until one fails. -/
theorem dispatch_runs_selected_handlers (edits : List Edit) (router : RouterId) (context : Value)
    (path : String) :
    Dispatches (build edits) context ((build edits).selectPath router context path)
      ((build edits).dispatch router context path) := by
  have forest := forest_build edits
  refine
    { noHandler := forest.kind_ne_handler
      records := ?_
      failed := fun failure failed => ?_
      unmatched := fun unmatched => ?_
      redirected := fun target redirected => ?_
      handled := fun first others selected replies => ?_
      raised := fun first others selected before call error after split replies => ?_
      reported := fun report success => ?_ }
  · cases selected : ((build edits).selectPath router context path).result with
    | error failure => rw [dispatch_of_failed selected]
    | ok outcome => rw [dispatch_of_outcome selected]
  · rw [dispatch_of_failed failed]
    exact ⟨rfl, rfl⟩
  · rw [dispatch_of_outcome unmatched]
    exact ⟨List.append_nil _, rfl⟩
  · rw [dispatch_of_outcome redirected]
    exact ⟨List.append_nil _, rfl⟩
  · rw [forest.handlings_eq selected] at replies ⊢
    rw [dispatch_of_outcome selected, Outcome.selections, Selection.handleAll_of_replies replies]
    exact ⟨rfl, rfl⟩
  · rw [forest.handlings_eq selected] at split
    rw [dispatch_of_outcome selected, Outcome.selections,
      Selection.handleAll_of_raises split replies]
    exact ⟨(List.append_assoc _ _ _).symm, rfl⟩
  · cases selected : ((build edits).selectPath router context path).result with
    | error failure =>
      rw [dispatch_of_failed selected] at success
      contradiction
    | ok outcome =>
      rw [dispatch_of_outcome selected] at success
      cases handled : (Selection.handleAll outcome.selections).result with
      | error failure =>
        simp [handled, Except.map] at success
      | ok value =>
        obtain rfl : Dispatch.ofOutcome outcome = report := by
          simpa [handled, Except.map] using success
        refine ⟨outcome, rfl, ?_⟩
        cases outcome <;> simp [Dispatch.ofOutcome, Outcome.selections, Outcome.target?]

/-! ### A desk that is closed and one that is busy -/

/-- The handler of the frame replies; of the two desks in it, nobody may go to the first, and the
handler of the second fails. -/
def deskEdits : List Edit :=
  [.router "" true,
    .route ⟨none, none, none, some fun _ => .ok .null, .text "frame", true⟩,
    .route ⟨none, some fun _ => .ok (.bool false), none, some fun _ => .ok .null, .text "desk",
      true⟩,
    .route ⟨none, none, none, some fun _ => .error ⟨"busy"⟩, .text "desk", true⟩,
    .append (.route ⟨0⟩) [⟨1⟩, ⟨2⟩],
    .append (.router ⟨0⟩) [⟨0⟩]]

/-- What every route of the frame is given. -/
def deskRequest : Request :=
  ⟨.text "visitor", .dict []⟩

/-- The guard of the first desk is asked, but its handler is not called. -/
theorem dispatch_runs_selected_handlers_desk :
    ∃ first others,
      ((build deskEdits).selectPath ⟨0⟩ (.text "visitor") "/a").result =
        .ok (.chain first others) ∧
      (build deskEdits).handlings (.text "visitor") (first :: others) =
        [⟨.handler ⟨0⟩ deskRequest, .ok .null⟩, ⟨.handler ⟨2⟩ deskRequest, .error ⟨"busy"⟩⟩] ∧
      ((build deskEdits).dispatch ⟨0⟩ (.text "visitor") "/a").calls =
        [.guard ⟨1⟩ deskRequest, .handler ⟨0⟩ deskRequest, .handler ⟨2⟩ deskRequest] ∧
      ((build deskEdits).dispatch ⟨0⟩ (.text "visitor") "/a").result =
        .error (.callback ⟨"busy"⟩) := by
  have dispatches := dispatch_runs_selected_handlers deskEdits ⟨0⟩ (.text "visitor") "/a"
  have guarded : ((build deskEdits).selectPath ⟨0⟩ (.text "visitor") "/a").calls =
      [.guard ⟨1⟩ deskRequest] := rfl
  obtain ⟨calls, result⟩ := dispatches.raised _ _ rfl
    [⟨.handler ⟨0⟩ deskRequest, .ok .null⟩] (.handler ⟨2⟩ deskRequest) ⟨"busy"⟩ [] rfl
    (by simp [Handling.Replies])
  refine ⟨_, _, rfl, rfl, ?_, result⟩
  rw [calls, guarded]
  rfl

end Hierarchy

end RouteTree
