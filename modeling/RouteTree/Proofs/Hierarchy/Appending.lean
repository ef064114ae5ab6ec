import RouteTree.ErrorKind
import RouteTree.Proofs.Hierarchy.Forest
import RouteTree.Proofs.Hierarchy.InPlace

/-! # Appending is all or nothing

Whether a batch is refused depends on two things: on what was appended in the course of the calls so
far, and on the routes above the target. The first is looked at before the second. A refused batch
changes nothing at all; an accepted one changes the list of its target and the places of its own
routes, and no other list and no other place.
-/

namespace RouteTree.Hierarchy

variable {hierarchy : Hierarchy} {edits : List Edit} {target : Handle} {batch : List RouteId}
  {id : RouteId}

/-- The kind of error with which appending in place fails, if it does. -/
def refusal? (hierarchy : Hierarchy) (target : Handle) (batch : List RouteId) :
    Option ErrorKind :=
  match appendInPlace target batch hierarchy with
  | .ok _ _ => none
  | .error error _ => some error.kind

/-- The hierarchy that appending in place leaves behind, whether it fails or not. -/
def afterAppending (hierarchy : Hierarchy) (target : Handle) (batch : List RouteId) : Hierarchy :=
  match appendInPlace target batch hierarchy with
  | .ok _ left => left
  | .error _ left => left

/-- A call that names what was constructed and appends it. -/
def Accepts (hierarchy : Hierarchy) (target : Handle) (batch : List RouteId) : Prop :=
  hierarchy.Holds target ∧ (∀ id ∈ batch, hierarchy.Holds (.route id)) ∧
    hierarchy.refusal? target batch = none

/-- Among some calls there was one that appended the route. -/
def WasAppended (edits : List Edit) (id : RouteId) : Prop :=
  ∃ earlier target batch, earlier ++ [.append target batch] <+: edits ∧
    (build earlier).Accepts target batch ∧ id ∈ batch

/-- A route of the batch was appended before, or the batch names it twice. -/
def IsSpent (edits : List Edit) (batch : List RouteId) : Prop :=
  ∃ id ∈ batch, WasAppended edits id ∨ 1 < batch.count id

/-- The batch holds the route that it is appended to, or a route above that one. -/
def ReachesUp (hierarchy : Hierarchy) (target : Handle) (batch : List RouteId) : Prop :=
  ∃ self, target = .route self ∧ ∃ id ∈ batch, Relation.ReflTransGen hierarchy.Above id self

/-- How a hierarchy stands to the one before a batch was appended. -/
structure Extended (before after : Hierarchy) (target : Handle) (batch : List RouteId) : Prop where
  members_target : after.members target = before.members target ++ batch
  members_other : ∀ other, other ≠ target → after.members other = before.members other
  /-- The routes of the batch have the target as their parent or their owner. -/
  placement_of_mem : ∀ id ∈ batch, after.placement id = .ofTarget target
  isAppended_of_mem : ∀ id ∈ batch, after.isAppended id = true
  /-- Every other route keeps its parent, its owner and whether it was appended. -/
  placement_of_notMem : ∀ id ∉ batch, after.placement id = before.placement id
  /-- Nothing but places and lists is touched. -/
  route?_eq : ∀ id, after.route? id = before.route? id
  config?_eq : ∀ router, after.config? router = before.config? router

/-! ## The history behind the places -/

theorem refusal?_eq_none_iff :
    hierarchy.refusal? target batch = none ↔ ∃ next, hierarchy.append target batch = .ok next := by
  rw [refusal?, appendInPlace_eq]
  cases hierarchy.append target batch <;> simp

/-- A refused batch leaves no trace behind. -/
theorem afterAppending_of_refused (refused : hierarchy.refusal? target batch ≠ none) :
    hierarchy.afterAppending target batch = hierarchy := by
  rw [refusal?, appendInPlace_eq] at refused
  rw [afterAppending, appendInPlace_eq]
  cases outcome : hierarchy.append target batch with
  | ok next => simp [outcome] at refused
  | error error => rfl

/-- A call for what was constructed leaves behind what appending in place does. -/
theorem edit_append (known : hierarchy.Holds target)
    (held : ∀ id ∈ batch, hierarchy.Holds (.route id)) :
    hierarchy.edit (.append target batch) = hierarchy.afterAppending target batch := by
  rw [edit, if_pos ⟨known, held⟩, afterAppending, appendInPlace_eq]
  cases hierarchy.append target batch <;> rfl

/-- A call that is not accepted changes nothing. -/
theorem edit_of_not_accepts (refused : ¬ hierarchy.Accepts target batch) :
    hierarchy.edit (.append target batch) = hierarchy := by
  simp only [edit]
  split_ifs with held
  · cases outcome : hierarchy.append target batch with
    | error error => rfl
    | ok next => exact (refused ⟨held.1, held.2, refusal?_eq_none_iff.mpr ⟨next, outcome⟩⟩).elim
  · rfl

/-- A call that is accepted attaches the batch. -/
theorem edit_of_accepts (accepted : hierarchy.Accepts target batch) :
    hierarchy.edit (.append target batch) = hierarchy.attach target batch := by
  obtain ⟨known, held, success⟩ := accepted
  obtain ⟨next, outcome⟩ := refusal?_eq_none_iff.mp success
  obtain ⟨_, _, _, rfl⟩ := append_eq_ok_iff.mp outcome
  simp only [edit, outcome]
  exact if_pos ⟨known, held⟩

theorem wasAppended_append_singleton_iff {last : Edit} :
    WasAppended (edits ++ [last]) id ↔ WasAppended edits id ∨
      ∃ target batch, last = .append target batch ∧ (build edits).Accepts target batch ∧
        id ∈ batch := by
  constructor
  · rintro ⟨earlier, target, batch, before, accepted, member⟩
    rcases List.prefix_concat_iff.mp before with same | before
    · obtain ⟨rfl, rfl⟩ := List.append_singleton_inj.mp same
      exact .inr ⟨target, batch, rfl, accepted, member⟩
    · exact .inl ⟨earlier, target, batch, before, accepted, member⟩
  · rintro (⟨earlier, target, batch, before, accepted, member⟩ |
      ⟨target, batch, rfl, accepted, member⟩)
    · exact ⟨earlier, target, batch, List.prefix_concat_iff.mpr (.inr before), accepted, member⟩
    · exact ⟨edits, target, batch, List.prefix_rfl, accepted, member⟩

/-- A route counts as appended exactly when some call appended it. -/
theorem isAppended_build_iff : (build edits).isAppended id = true ↔ WasAppended edits id := by
  induction edits using List.reverseRecOn with
  | nil => simp [WasAppended, isAppended, placement, node?, build, editAll, empty,
      Placement.isDetached]
  | append_singleton edits last ih =>
    rw [build_append_singleton, wasAppended_append_singleton_iff, ← ih]
    cases last with
    | route spec =>
      simp only [edit]
      split <;> simp [isAppended]
    | router mount decodesSegments => simp [edit, isAppended]
    | append target batch =>
      by_cases accepted : (build edits).Accepts target batch
      · rw [edit_of_accepts accepted, isAppended_iff, isAppended_iff,
          placement_attach target accepted.2.1]
        by_cases member : id ∈ batch
        · simp [member, accepted]
        · simp [member]
      · rw [edit_of_not_accepts accepted]
        simp [accepted]

/-! ## When a batch is refused -/

/-- The first check fails exactly on a batch that is spent. -/
theorem isSpent_iff :
    IsSpent edits batch ↔
      (batch.any (build edits).isAppended || !decide batch.Nodup) = true := by
  simp only [IsSpent, ← isAppended_build_iff, Bool.or_eq_true, List.any_eq_true,
    Bool.not_eq_true', decide_eq_false_iff_not, List.nodup_iff_count_le_one, not_forall, not_le]
  constructor
  · rintro ⟨id, member, placed | repeated⟩
    · exact .inl ⟨id, member, placed⟩
    · exact .inr ⟨id, repeated⟩
  · rintro (⟨id, member, placed⟩ | ⟨id, repeated⟩)
    · exact ⟨id, member, .inl placed⟩
    · exact ⟨id, List.count_pos_iff.mp (by omega), .inr repeated⟩

/-- The second check fails exactly on a batch that reaches up. -/
theorem Forest.reachesUp_iff (forest : hierarchy.Forest) :
    hierarchy.ReachesUp target batch ↔
      (batch.any fun id => (hierarchy.barred target).contains id) = true := by
  simp only [ReachesUp, List.any_eq_true, List.contains_iff_mem]
  cases target with
  | route self => simp [barred, forest.mem_lineage_iff]
  | router router => simp [barred]

open scoped Classical in
/-- The two checks, in their order, decide what is answered. -/
theorem refusal?_build (edits : List Edit) (target : Handle) (batch : List RouteId) :
    (build edits).refusal? target batch =
      if IsSpent edits batch then some .alreadyAppended
      else if (build edits).ReachesUp target batch then some .configuration
      else none := by
  simp only [isSpent_iff, (forest_build edits).reachesUp_iff, refusal?, appendInPlace_eq, append]
  split_ifs <;> rfl

/-- What an accepted batch changes. -/
theorem Accepts.extended (accepted : hierarchy.Accepts target batch) :
    Extended hierarchy (hierarchy.edit (.append target batch)) target batch := by
  have placement := placement_attach target accepted.2.1
  have members := members_attach accepted.1 batch
  rw [edit_of_accepts accepted]
  refine ⟨?_, ?_, ?_, ?_, ?_, route?_attach target batch, config?_attach target batch⟩
  · rw [members, if_pos rfl]
  · intro other different
    rw [members, if_neg different.symm]
  · intro id member
    rw [placement, if_pos member]
  · intro id member
    rw [isAppended_iff, placement, if_pos member]
    exact Placement.ofTarget_ne_detached target
  · intro id outside
    rw [placement, if_neg outside]

/-- A batch is refused as appended before exactly when it is spent, otherwise as misplaced exactly
when it reaches up from its target, which no batch for a router does, and otherwise it is accepted.
Refused, it leaves the hierarchy as it was; accepted, it changes its target and its routes alone. -/
theorem append_is_atomic (known : (build edits).Holds target)
    (held : ∀ id ∈ batch, (build edits).Holds (.route id)) :
    ((build edits).refusal? target batch = some .alreadyAppended ↔ IsSpent edits batch) ∧
      ((build edits).refusal? target batch = some .configuration ↔
        ¬ IsSpent edits batch ∧ (build edits).ReachesUp target batch) ∧
      ((build edits).refusal? target batch = none ↔
        ¬ IsSpent edits batch ∧ ¬ (build edits).ReachesUp target batch) ∧
      ((build edits).refusal? target batch ≠ none →
        (build edits).afterAppending target batch = build edits) ∧
      ((build edits).refusal? target batch = none →
        Extended (build edits) ((build edits).afterAppending target batch) target batch) ∧
      build (edits ++ [.append target batch]) = (build edits).afterAppending target batch := by
  have answer := refusal?_build edits target batch
  have left := edit_append known held
  refine ⟨?_, ?_, ?_, afterAppending_of_refused, fun success => ?_, ?_⟩
  · rw [answer]
    split_ifs with spent <;> simp [spent]
  · rw [answer]
    split_ifs <;> simp [*]
  · rw [answer]
    split_ifs <;> simp [*]
  · rw [← left]
    exact Accepts.extended ⟨known, held, success⟩
  · rw [build_append_singleton, left]

/-- Three routes without patterns, the second below the first. -/
def lineEdits : List Edit :=
  let plain : RouteSpec := ⟨none, none, none, none, .null, true⟩
  [.route plain, .route plain, .route plain, .append (.route ⟨0⟩) [⟨1⟩]]

/-- The first route cannot be appended to the second, and the third one behind it is not appended
either. -/
theorem append_is_atomic_below_itself :
    ((build lineEdits).Holds (.route ⟨1⟩) ∧
        ∀ id ∈ [⟨2⟩, ⟨0⟩], (build lineEdits).Holds (.route id)) ∧
      ¬ IsSpent lineEdits [⟨2⟩, ⟨0⟩] ∧ (build lineEdits).ReachesUp (.route ⟨1⟩) [⟨2⟩, ⟨0⟩] ∧
      (build lineEdits).refusal? (.route ⟨1⟩) [⟨2⟩, ⟨0⟩] = some .configuration ∧
      (build lineEdits).afterAppending (.route ⟨1⟩) [⟨2⟩, ⟨0⟩] = build lineEdits ∧
      build (lineEdits ++ [.append (.route ⟨1⟩) [⟨2⟩, ⟨0⟩]]) = build lineEdits := by
  have known : (build lineEdits).Holds (.route ⟨1⟩) := by decide
  have held : ∀ id ∈ [⟨2⟩, ⟨0⟩], (build lineEdits).Holds (.route id) := by decide
  have refused : (build lineEdits).refusal? (.route ⟨1⟩) [⟨2⟩, ⟨0⟩] = some .configuration := rfl
  obtain ⟨_, misplaced, _, unchanged, _, next⟩ := append_is_atomic known held
  obtain ⟨fresh, reaches⟩ := misplaced.mp refused
  have same := unchanged (by rw [refused]; nofun)
  exact ⟨⟨known, held⟩, fresh, reaches, refused, same, next.trans same⟩

end RouteTree.Hierarchy
