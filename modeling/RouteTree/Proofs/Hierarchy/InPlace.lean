import RouteTree.Proofs.Hierarchy.Building

/-! # Appending in place

Appending can be carried out on a hierarchy that changes while it is worked on: the batch is looked
through twice, and then its routes are placed one after the other, each with its own entry in the
list of the target. A failure leaves the hierarchy as it stands at that moment. `appendInPlace_eq`
says that this is `Hierarchy.append`, and that no failure comes after the first change.
-/

namespace RouteTree.Hierarchy

/-- What is done to a hierarchy in place; a failure does not undo it. -/
abbrev InPlace := EStateM AppendError Hierarchy Unit

/-- Look for routes that were appended before or that the batch names again. -/
def refuseSpent : List RouteId → List RouteId → InPlace
  | _, [] => pure ()
  | seen, id :: rest => do
    if seen.contains id || (← get).isAppended id then throw .alreadyAppended
    else refuseSpent (id :: seen) rest

/-- Look for routes that must not be appended. -/
def refuseBarred (barred : List RouteId) : List RouteId → InPlace
  | [] => pure ()
  | id :: rest => if barred.contains id then throw .belowItself else refuseBarred barred rest

/-- Place routes one after the other. -/
def adopt (target : Handle) : List RouteId → InPlace
  | [] => pure ()
  | id :: rest => do
    modify fun hierarchy => (hierarchy.place (.ofTarget target) id).extend [id] target
    adopt target rest

def appendInPlace (target : Handle) (batch : List RouteId) : InPlace := do
  refuseSpent [] batch
  refuseBarred ((← get).barred target) batch
  adopt target batch

theorem refuseSpent_cons (seen : List RouteId) (id : RouteId) (rest : List RouteId)
    (hierarchy : Hierarchy) :
    refuseSpent seen (id :: rest) hierarchy =
      if seen.contains id || hierarchy.isAppended id then .error .alreadyAppended hierarchy
      else refuseSpent (id :: seen) rest hierarchy := by
  rw [refuseSpent]
  change (if _ then _ else _ : InPlace) hierarchy = _
  split <;> rfl

/-- To name a route again is to name one that was seen. -/
theorem spent_cons (appended : RouteId → Bool) (seen : List RouteId) (id : RouteId)
    (rest : List RouteId) :
    (rest.any (fun other => (id :: seen).contains other || appended other) ||
        !decide rest.Nodup) =
      (rest.any (fun other => seen.contains other || appended other) ||
        !decide (id :: rest).Nodup) := by
  rw [Bool.eq_iff_iff]
  simp only [Bool.or_eq_true, List.any_eq_true, List.contains_iff_mem, List.mem_cons,
    Bool.not_eq_true', decide_eq_false_iff_not, List.nodup_cons]
  by_cases again : id ∈ rest
  · exact iff_of_true (.inl ⟨id, again, .inl (.inl rfl)⟩) (.inr fun distinct => distinct.1 again)
  · have other : ∀ x ∈ rest, x ≠ id := fun x member => ne_of_mem_of_not_mem member again
    refine or_congr (exists_congr fun x => and_congr_right fun member => ?_) (by simp [again])
    simp [other x member]

/-- The first look fails when the batch names a route that was seen or appended before, or one of
its own twice; it changes nothing. -/
theorem refuseSpent_eq (seen batch : List RouteId) (hierarchy : Hierarchy) :
    refuseSpent seen batch hierarchy =
      if batch.any (fun id => seen.contains id || hierarchy.isAppended id) || !decide batch.Nodup
      then .error .alreadyAppended hierarchy else .ok () hierarchy := by
  induction batch generalizing seen with
  | nil => rfl
  | cons id rest ih =>
    rw [refuseSpent_cons, List.any_cons]
    by_cases refused : (seen.contains id || hierarchy.isAppended id) = true
    · rw [if_pos refused, refused]
      rfl
    · rw [if_neg refused, ih, spent_cons, eq_false_of_ne_true refused, Bool.false_or]

theorem refuseBarred_eq (barred batch : List RouteId) (hierarchy : Hierarchy) :
    refuseBarred barred batch hierarchy =
      if batch.any barred.contains then .error .belowItself hierarchy else .ok () hierarchy := by
  induction batch with
  | nil => rfl
  | cons id rest ih =>
    rw [refuseBarred, List.any_cons]
    cases barred.contains id with
    | true => rfl
    | false => exact ih

/-- Placing a route and extending a list touch different fields. -/
theorem place_extend (hierarchy : Hierarchy) (placement : Placement) (id : RouteId)
    (listed : List RouteId) (target : Handle) :
    (hierarchy.extend listed target).place placement id =
      (hierarchy.place placement id).extend listed target := by
  cases target with
  | router router => rfl
  | route parent =>
    simp only [extend, place, mk.injEq, and_true]
    refine Array.ext (by simp) fun index _ _ => ?_
    simp only [Array.getElem_modify]
    split_ifs <;> rfl

theorem modify_modify {α : Type} (values : Array α) (position : Nat) (first second : α → α) :
    (values.modify position first).modify position second =
      values.modify position fun value => second (first value) := by
  refine Array.ext (by simp) fun index _ _ => ?_
  simp only [Array.getElem_modify]
  split_ifs <;> rfl

theorem extend_extend (hierarchy : Hierarchy) (first second : List RouteId) (target : Handle) :
    (hierarchy.extend first target).extend second target =
      hierarchy.extend (first ++ second) target := by
  cases target <;> simp only [extend, modify_modify, List.append_assoc]

theorem extend_nil (hierarchy : Hierarchy) (target : Handle) :
    hierarchy.extend [] target = hierarchy := by
  have unchanged : ∀ {α : Type} (values : Array α) (position : Nat),
      values.modify position (fun value => value) = values := by
    intro α values position
    refine Array.ext (by simp) fun index _ _ => ?_
    simp [Array.getElem_modify]
  cases target <;> simp only [extend, List.append_nil, unchanged]

/-- Attaching a batch is attaching its first route and then the others. -/
theorem attach_cons (hierarchy : Hierarchy) (target : Handle) (id : RouteId)
    (rest : List RouteId) :
    hierarchy.attach target (id :: rest) =
      ((hierarchy.place (.ofTarget target) id).extend [id] target).attach target rest := by
  have placed : ∀ start : Hierarchy,
      rest.foldl (fun current id => current.place (.ofTarget target) id)
          (start.extend [id] target) =
        (rest.foldl (fun current id => current.place (.ofTarget target) id) start).extend
          [id] target :=
    fun start => List.foldl_hom (fun current => extend current [id] target)
      fun current other => place_extend current _ other [id] target
  rw [attach, attach, placed, extend_extend]
  rfl

theorem adopt_eq (target : Handle) (batch : List RouteId) (hierarchy : Hierarchy) :
    adopt target batch hierarchy = .ok () (hierarchy.attach target batch) := by
  induction batch generalizing hierarchy with
  | nil => exact congrArg (EStateM.Result.ok ()) (extend_nil hierarchy target).symm
  | cons id rest ih =>
    rw [attach_cons, ← ih]
    rfl

section

variable {α β : Type} {first : EStateM AppendError Hierarchy α} {hierarchy left : Hierarchy}

theorem bind_of_ok {value : α} (success : first hierarchy = .ok value left)
    (next : α → EStateM AppendError Hierarchy β) :
    (first >>= next) hierarchy = next value left := by
  change EStateM.bind first next hierarchy = _
  rw [EStateM.bind, success]

theorem bind_of_error {error : AppendError} (failed : first hierarchy = .error error left)
    (next : α → EStateM AppendError Hierarchy β) :
    (first >>= next) hierarchy = .error error left := by
  change EStateM.bind first next hierarchy = _
  rw [EStateM.bind, failed]

end

/-- In place, a batch is appended just as it is at once, and a failure leaves the hierarchy as it
was. -/
theorem appendInPlace_eq (hierarchy : Hierarchy) (target : Handle) (batch : List RouteId) :
    appendInPlace target batch hierarchy =
      match hierarchy.append target batch with
      | .ok next => .ok () next
      | .error error => .error error hierarchy := by
  have passed := refuseSpent_eq [] batch hierarchy
  have allowed := refuseBarred_eq (hierarchy.barred target) batch hierarchy
  simp only [List.contains_nil, Bool.false_or] at passed
  rw [append]
  split_ifs at passed allowed ⊢ with spent above
  · exact bind_of_error passed _
  · exact bind_of_error passed _
  · exact (bind_of_ok passed _).trans (bind_of_error allowed _)
  · exact (bind_of_ok passed _).trans ((bind_of_ok allowed _).trans (adopt_eq target batch _))

end RouteTree.Hierarchy
