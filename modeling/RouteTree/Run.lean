import RouteTree.Callback
import RouteTree.Handle

/-! # Runs

A run is a computation that calls callbacks. It records each call before the callback replies and
each message it logs, so that both survive a failure; what was recorded before a step is never
changed by it.
-/

namespace RouteTree

/-- One call of a callback with what it was given. -/
inductive Call where
  | extractor (route : RouteId) (values : List String)
  | guard (route : RouteId) (request : Request)
  | handler (route : RouteId) (request : Request)
  deriving Repr

/-- One logged message. Routes and links are given as they are shown. -/
inductive Record where
  | redirectRequested (route : RouteId) (shown target : String)
  | outsideMount (path mount : String)
  | unmatched (path : String)
  | linked (shown link : String)
  deriving DecidableEq, Repr

def Record.message : Record → String
  | .redirectRequested _ shown target =>
    "Guard of " ++ shown ++ " requested redirect to " ++ Text.quoted target
  | .outsideMount path mount =>
    "Path " ++ Text.quoted path ++ " is outside prefix " ++ Text.quoted mount
  | .unmatched path => "No route matches " ++ Text.quoted path
  | .linked shown link => "Link for " ++ shown ++ ": " ++ link

/-- The line that a log keeps of a message: its level, where it was logged, and its text. -/
def Record.line (record : Record) : String :=
  "DEBUG waypoint.routing: " ++ record.message

/-- A result together with the calls and messages on the way to it. -/
structure Run (α : Type) where
  calls : List Call
  records : List Record
  result : Except Failure α

namespace Run

variable {α β : Type}

protected def pure (value : α) : Run α :=
  ⟨[], [], .ok value⟩

/-- The second computation follows only a first one that did not fail. -/
protected def bind (first : Run α) (next : α → Run β) : Run β :=
  match first.result with
  | .error failure => ⟨first.calls, first.records, .error failure⟩
  | .ok value =>
    let second := next value
    ⟨first.calls ++ second.calls, first.records ++ second.records, second.result⟩

instance : Monad Run where
  pure := Run.pure
  bind := Run.bind

theorem bind_of_ok {first : Run α} {value : α} (success : first.result = .ok value)
    (next : α → Run β) :
    first >>= next =
      ⟨first.calls ++ (next value).calls, first.records ++ (next value).records,
        (next value).result⟩ := by
  change Run.bind first next = _
  simp only [Run.bind, success]

theorem bind_of_error {first : Run α} {failure : Failure}
    (failed : first.result = .error failure) (next : α → Run β) :
    first >>= next = ⟨first.calls, first.records, .error failure⟩ := by
  change Run.bind first next = _
  simp only [Run.bind, failed]

instance : LawfulMonad Run :=
  LawfulMonad.mk' Run
    (fun run => by
      change Run.bind run _ = run
      rcases run with ⟨calls, records, failure | value⟩
      · rfl
      · simp [Run.bind, Run.pure])
    (fun value next => by
      change Run.bind (Run.pure value) next = next value
      simp [Run.bind, Run.pure])
    (fun run next last => by
      change Run.bind (Run.bind run next) last =
        Run.bind run fun value => Run.bind (next value) last
      rcases run with ⟨calls, records, failure | value⟩
      · rfl
      · cases second : (next value).result <;>
          simp [Run.bind, second, List.append_assoc])

@[simp] theorem calls_pure (value : α) : (pure value : Run α).calls = [] := rfl

@[simp] theorem records_pure (value : α) : (pure value : Run α).records = [] := rfl

@[simp] theorem result_pure (value : α) : (pure value : Run α).result = .ok value := rfl

/-- Computing with the value of a run adds no call and no message. -/
theorem map_eq (compute : α → β) (run : Run α) :
    compute <$> run = ⟨run.calls, run.records, run.result.map compute⟩ := by
  rw [← bind_pure_comp]
  cases result : run.result with
  | error failure => rw [bind_of_error result]; rfl
  | ok value => rw [bind_of_ok result]; simp [Except.map]

theorem result_bind (first : Run α) (next : α → Run β) :
    (first >>= next).result = first.result.bind fun value => (next value).result := by
  cases first_result : first.result with
  | error failure => rw [bind_of_error first_result]; rfl
  | ok value => rw [bind_of_ok first_result]; rfl

/-- Record a call. -/
def call (call : Call) : Run Unit :=
  ⟨[call], [], .ok ()⟩

/-- Log a message. -/
def log (record : Record) : Run Unit :=
  ⟨[], [record], .ok ()⟩

/-- The reply of a callback. -/
def reply (reply : Except CallbackError α) : Run α :=
  ⟨[], [], reply.mapError .callback⟩

/-- A result that needs no callback. -/
def ofExcept (result : Except Failure α) : Run α :=
  ⟨[], [], result⟩

end Run

end RouteTree
