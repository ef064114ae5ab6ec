import RouteTree.Session
import RouteTree.Proofs.Hierarchy.Constructed
import RouteTree.Proofs.Hierarchy.Forest
import RouteTree.Proofs.Pattern.Filling

/-! # Sessions build hierarchies

A command comes to at most one call on the hierarchy, and `edit?` says to which. As long as every
label stands for what was constructed, the hierarchy of a session is the one that these calls build,
so whatever holds of all that can be built holds in every session. A refused command leaves the
session as it is: a run ends as if only its other commands had been given.
-/

namespace RouteTree

/-! ## Commands -/

/-- A command that constructs nothing and appends nothing. -/
def Command.Asks : Command → Prop
  | .route .. | .router .. | .append .. => False
  | _ => True

/-- The mount of a new router is in the form in which configurations keep it. -/
def Command.IsProper : Command → Prop
  | .router _ config => config = .ofMount config.mount config.decodesSegments
  | _ => True

theorem Command.isProper_router (label mount : String) (decodesSegments : Bool) :
    (router label (.ofMount mount decodesSegments)).IsProper :=
  (Config.ofMount_mount mount decodesSegments).symm

namespace Session

variable {session : Session} {command : Command} {commands : List Command}

/-! ## Labels -/

/-- Every label stands for a route or a router that was constructed. -/
def Labelled (session : Session) : Prop :=
  ∀ label handle, session.labels.lookup label = some handle → session.hierarchy.Holds handle

theorem handle_eq_ok_iff {label : String} {handle : Handle} :
    session.handle label = .ok handle ↔ session.labels.lookup label = some handle := by
  rw [Session.handle]
  cases session.labels.lookup label <;> simp

theorem routeId_eq_ok_iff {label : String} {id : RouteId} :
    session.routeId label = .ok id ↔ session.labels.lookup label = some (.route id) := by
  rw [routeId]
  split
  · next given found => simp [found]
  · next other => simpa using other id

theorem labelled_empty : empty.Labelled := by
  intro label handle found
  contradiction

/-- A batch that was looked up was constructed. -/
theorem Labelled.holds_batch (labelled : session.Labelled) {batch : List String}
    {ids : List RouteId} (found : batch.mapM session.routeId = .ok ids) :
    ∀ id ∈ ids, session.hierarchy.Holds (.route id) := by
  induction batch generalizing ids with
  | nil =>
    cases found
    exact List.forall_mem_nil _
  | cons label rest ih =>
    simp only [List.mapM_cons, bind_eq_ok_iff] at found
    obtain ⟨id, here, others, later, last⟩ := found
    cases last
    rw [List.forall_mem_cons]
    exact ⟨labelled label _ (routeId_eq_ok_iff.mp here), ih later⟩

/-! ## The call that a command comes to -/

open Hierarchy (Edit)

/-- The call on the hierarchy that a command comes to. Most commands only ask, and a label that is
not known is noticed before. -/
def edit? (session : Session) : Command → Option Edit
  | .route _ spec => some (.route spec)
  | .router _ config => some (.router config.mount config.decodesSegments)
  | .append label batch => do
    let target ← (session.handle label).toOption
    let ids ← (batch.mapM session.routeId).toOption
    return .append target ids
  | _ => none

/-- The calls that commands come to one after another. -/
def edits (session : Session) : List Command → List Edit
  | [] => []
  | command :: rest => (session.edit? command).toList ++ (session.step command).1.edits rest

/-- A command that only asks changes nothing but the latest selections. -/
theorem exists_latest (session : Session) (asks : command.Asks) :
    ∃ latest, (session.step command).1 = { session with latest } := by
  cases command with
  | route | router | append => contradiction
  | inspect | call => exact ⟨session.latest, rfl⟩
  | select label =>
    simp only [step]
    cases session.routeId label <;> exact ⟨_, rfl⟩
  | selectPath label | dispatch label =>
    simp only [step]
    cases session.routerId label <;> exact ⟨_, rfl⟩
  | link label arguments router =>
    simp only [step]
    cases session.link label arguments router <;> exact ⟨session.latest, rfl⟩

theorem hierarchy_of_asks (asks : command.Asks) :
    (session.step command).1.hierarchy = session.hierarchy := by
  obtain ⟨latest, same⟩ := session.exists_latest asks
  rw [same]

theorem labels_of_asks (asks : command.Asks) :
    (session.step command).1.labels = session.labels := by
  obtain ⟨latest, same⟩ := session.exists_latest asks
  rw [same]

/-- A batch of known routes is appended to a known target as one call does it. -/
theorem Labelled.hierarchy_append (labelled : session.Labelled) (label : String)
    (batch : List String) :
    (session.step (.append label batch)).1.hierarchy =
      session.hierarchy.editAll (session.edit? (.append label batch)).toList := by
  simp only [step, append, edit?, bind, Except.bind]
  cases known : session.handle label with
  | error refusal => rfl
  | ok target =>
    cases found : batch.mapM session.routeId with
    | error refusal => rfl
    | ok ids =>
      have held : session.hierarchy.Holds target ∧
          ∀ id ∈ ids, session.hierarchy.Holds (.route id) :=
        ⟨labelled label target (handle_eq_ok_iff.mp known), labelled.holds_batch found⟩
      change _ = session.hierarchy.edit (.append target ids)
      rw [Hierarchy.edit, if_pos held]
      dsimp only
      cases session.hierarchy.append target ids <;> rfl

/-- A command does to the hierarchy what the call does that it comes to. -/
theorem Labelled.hierarchy_step (labelled : session.Labelled) (proper : command.IsProper) :
    (session.step command).1.hierarchy =
      session.hierarchy.editAll (session.edit? command).toList := by
  cases command with
  | route label spec =>
    change _ = session.hierarchy.edit (.route spec)
    simp only [step, addRoute, Hierarchy.edit]
    cases Route.ofSpec spec <;> rfl
  | router label config =>
    change _ = session.hierarchy.addRouter (.ofMount config.mount config.decodesSegments)
    rw [← proper]
    rfl
  | append label batch => exact labelled.hierarchy_append label batch
  | _ => exact hierarchy_of_asks trivial

/-- A command introduces at most one label, for what it constructs. -/
theorem labels_step (session : Session) (command : Command) :
    (session.step command).1.labels = session.labels ∨
      ∃ label handle, (session.step command).1.labels = (label, handle) :: session.labels ∧
        (session.step command).1.hierarchy.Holds handle := by
  cases command with
  | route label spec =>
    simp only [step, addRoute]
    cases Route.ofSpec spec with
    | error error => exact .inl rfl
    | ok route =>
      exact .inr ⟨label, _, rfl, session.hierarchy.holds_nextRoute route⟩
  | router label config =>
    exact .inr ⟨label, _, rfl, session.hierarchy.holds_nextRouter config⟩
  | append label batch =>
    simp only [step]
    cases accepted : session.append label batch with
    | error refusal => exact .inl rfl
    | ok after =>
      simp only [append, bind_eq_ok_iff] at accepted
      obtain ⟨target, _, ids, _, hierarchy, _, last⟩ := accepted
      cases last
      exact .inl rfl
  | _ => exact .inl (labels_of_asks trivial)

theorem Labelled.step (labelled : session.Labelled) (proper : command.IsProper) :
    (session.step command).1.Labelled := by
  have kept : ∀ handle, session.hierarchy.Holds handle →
      (session.step command).1.hierarchy.Holds handle := by
    intro handle held
    rw [labelled.hierarchy_step proper]
    exact (Hierarchy.holds_preserved handle).editAll held _
  intro label handle found
  rcases session.labels_step command with same | ⟨new, introduced, more, held⟩
  · rw [same] at found
    exact kept handle (labelled label handle found)
  · rw [more, List.lookup_cons] at found
    split at found
    · cases found
      exact held
    · exact kept handle (labelled label handle found)

/-! ## Runs -/

/-- The hierarchy after a run is what the calls that its commands come to make of the one before. -/
theorem Labelled.hierarchy_run (labelled : session.Labelled)
    (proper : ∀ command ∈ commands, command.IsProper) :
    (session.run commands).1.Labelled ∧
      (session.run commands).1.hierarchy = session.hierarchy.editAll (session.edits commands) := by
  induction commands generalizing session with
  | nil => exact ⟨labelled, rfl⟩
  | cons command rest ih =>
    rw [List.forall_mem_cons] at proper
    obtain ⟨here, later⟩ := ih (labelled.step proper.1) proper.2
    refine ⟨here, later.trans ?_⟩
    rw [labelled.hierarchy_step proper.1, edits, Hierarchy.editAll_append]

/-- A session that starts from nothing has a hierarchy that calls have built. -/
theorem hierarchy_run_empty (proper : ∀ command ∈ commands, command.IsProper) :
    (empty.run commands).1.hierarchy = Hierarchy.build (empty.edits commands) :=
  (labelled_empty.hierarchy_run proper).2

/-- A session between two commands: calls have built its hierarchy, and its labels stand for what
they constructed. -/
structure IsBuilt (session : Session) : Prop where
  labelled : session.Labelled
  built : ∃ edits, session.hierarchy = Hierarchy.build edits

namespace IsBuilt

theorem empty : Session.empty.IsBuilt :=
  ⟨labelled_empty, [], rfl⟩

theorem step (built : session.IsBuilt) (proper : command.IsProper) :
    (session.step command).1.IsBuilt := by
  refine ⟨built.labelled.step proper, ?_⟩
  obtain ⟨edits, same⟩ := built.built
  refine ⟨edits ++ (session.edit? command).toList, ?_⟩
  rw [built.labelled.hierarchy_step proper, same, Hierarchy.build_append]

/-- Each report of a run is that of one of its commands to the session that those before it have
left, and that session is built. -/
theorem exists_of_mem_reports (built : session.IsBuilt)
    (proper : ∀ command ∈ commands, command.IsProper) {report : Report}
    (reported : report ∈ (session.run commands).2) :
    ∃ before command after, commands = before ++ command :: after ∧
      (session.run before).1.IsBuilt ∧ report = ((session.run before).1.step command).2 := by
  induction commands generalizing session with
  | nil => contradiction
  | cons command rest ih =>
    rw [List.forall_mem_cons] at proper
    rcases List.mem_cons.mp reported with rfl | later
    · exact ⟨[], command, rest, rfl, built, rfl⟩
    · obtain ⟨before, other, after, rfl, held, same⟩ := ih (built.step proper.1) proper.2 later
      exact ⟨command :: before, other, after, rfl, held, same⟩

theorem forest (built : session.IsBuilt) : session.hierarchy.Forest := by
  obtain ⟨edits, same⟩ := built.built
  rw [same]
  exact Hierarchy.forest_build edits

theorem constructed (built : session.IsBuilt) : session.hierarchy.Constructed := by
  obtain ⟨edits, same⟩ := built.built
  rw [same]
  exact Hierarchy.constructed_build edits

end IsBuilt

/-! ## Refused commands -/

theorem keepSelections_of_refused {α : Type} {run : Run α} {answer : α → Answer}
    {selections : α → List Selection} {refusal : Refusal}
    (refused : (session.keepSelections run answer selections).2.result = .error refusal) :
    (session.keepSelections run answer selections).1 = session := by
  cases result : run.result with
  | error failure => simp only [keepSelections, result]
  | ok value => simp [keepSelections, Report.ofRun, result, Except.mapError, Except.map] at refused

/-- A refused command leaves the session as it is. -/
theorem step_of_refused {refusal : Refusal}
    (refused : (session.step command).2.result = .error refusal) :
    (session.step command).1 = session := by
  cases command with
  | route label spec =>
    simp only [step, addRoute] at refused ⊢
    cases ofSpec : Route.ofSpec spec with
    | error error => rfl
    | ok route => simp [ofSpec, Report.quiet] at refused
  | router label config => simp [step, addRouter, Report.quiet] at refused
  | append label batch =>
    simp only [step] at refused ⊢
    cases appended : session.append label batch with
    | error error => rfl
    | ok after => simp [appended, Report.quiet] at refused
  | inspect | call => rfl
  | select label =>
    simp only [step] at refused ⊢
    cases known : session.routeId label with
    | error error => rfl
    | ok id =>
      rw [known] at refused
      exact keepSelections_of_refused refused
  | selectPath label | dispatch label =>
    simp only [step] at refused ⊢
    cases known : session.routerId label with
    | error error => rfl
    | ok id =>
      rw [known] at refused
      exact keepSelections_of_refused refused
  | link label arguments router =>
    simp only [step]
    cases session.link label arguments router <;> rfl

/-- The commands of a run that are not refused. -/
def accepted (session : Session) : List Command → List Command
  | [] => []
  | command :: rest =>
    let (next, report) := session.step command
    if report.result.isOk then command :: next.accepted rest else next.accepted rest

/-- Every command is reported. -/
theorem length_reports (session : Session) (commands : List Command) :
    (session.run commands).2.length = commands.length := by
  induction commands generalizing session with
  | nil => rfl
  | cons command rest ih => simp [run, ih]

/-- Without its refused commands a run ends in the same session, and the other reports are the
same. -/
theorem run_accepted (session : Session) (commands : List Command) :
    session.run (session.accepted commands) =
      ((session.run commands).1, (session.run commands).2.filter fun report =>
        report.result.isOk) := by
  induction commands generalizing session with
  | nil => rfl
  | cons command rest ih =>
    simp only [accepted, run]
    cases result : (session.step command).2.result with
    | ok answer => simp [run, ih, result, Except.isOk, Except.toBool]
    | error refusal => simp [ih, result, step_of_refused result, Except.isOk, Except.toBool]

end Session

end RouteTree
