import RouteTree.Proofs.Hierarchy.Building
import Mathlib.Data.List.Chain
import Mathlib.Data.List.Nodup
import Mathlib.Data.List.Range
import Mathlib.Data.List.Perm.Subperm
import Mathlib.Data.List.TakeWhile
import Mathlib.Logic.Relation
import Mathlib.Order.WellFounded

/-! # Lineages in a forest

In a forest the two records of places agree, no route is listed twice by one target, and no climb
goes on for ever. `Hierarchy.climb` is bounded by the number of routes; that the bound never cuts a
climb short is `Forest.ascent`, and everything else about lineages follows from it.
-/

namespace RouteTree.Hierarchy

variable {hierarchy : Hierarchy} {id parent : RouteId}

/-- A route is above another when that one was placed below it. -/
def Above (hierarchy : Hierarchy) (parent child : RouteId) : Prop :=
  hierarchy.parent? child = some parent

/-- The invariant of building: both records of places agree, and climbing ends. -/
structure Forest (hierarchy : Hierarchy) : Prop where
  mem_members_iff : ∀ target id,
    id ∈ hierarchy.members target ↔ hierarchy.placement id = .ofTarget target
  members_nodup : ∀ target, (hierarchy.members target).Nodup
  above_wellFounded : WellFounded hierarchy.Above

theorem parent?_eq_some_iff :
    hierarchy.parent? id = some parent ↔ hierarchy.placement id = .below parent :=
  Placement.parent?_eq_some_iff

/-- A route that was never constructed has no parent. -/
theorem parent?_eq_none (absent : ¬ hierarchy.Holds (.route id)) : hierarchy.parent? id = none := by
  rw [parent?, placement, node?_eq_none absent]
  rfl

theorem holds_of_parent (placed : hierarchy.parent? id = some parent) :
    hierarchy.Holds (.route id) := by
  by_contra absent
  rw [parent?_eq_none absent] at placed
  contradiction

/-- The routes met on the way from a route up to its root. -/
inductive Ascent (hierarchy : Hierarchy) : RouteId → List RouteId → Prop
  | root {id : RouteId} (top : hierarchy.parent? id = none) : Ascent hierarchy id [id]
  | step {id parent : RouteId} {rest : List RouteId} (placed : hierarchy.parent? id = some parent)
      (onward : Ascent hierarchy parent rest) : Ascent hierarchy id (id :: rest)

namespace Ascent

variable {path : List RouteId}

/-- A climb with enough steps is the whole ascent. -/
theorem climb_eq (ascent : Ascent hierarchy id path) {steps : Nat}
    (enough : path.length ≤ steps + 1) : hierarchy.climb steps id = path := by
  induction ascent generalizing steps with
  | root top => cases steps <;> simp [climb, top]
  | @step id parent rest placed onward ih =>
    cases steps with
    | zero =>
      cases onward <;> simp at enough
    | succ steps =>
      simp only [List.length_cons, Nat.add_le_add_iff_right] at enough
      simp only [climb, placed, ih enough]

theorem self_mem (ascent : Ascent hierarchy id path) : id ∈ path := by
  cases ascent <;> exact List.mem_cons_self

theorem above_of_mem (ascent : Ascent hierarchy id path) {other : RouteId}
    (member : other ∈ path) : Relation.ReflTransGen hierarchy.Above other id := by
  induction ascent with
  | root top => rw [List.mem_singleton.mp member]
  | step placed onward ih =>
    rcases List.mem_cons.mp member with rfl | later
    · exact .refl
    · exact .tail (ih later) placed

/-- Whatever stands above a route of an ascent belongs to the ascent. -/
theorem parent_mem (ascent : Ascent hierarchy id path) {child above : RouteId}
    (member : child ∈ path) (placed : hierarchy.parent? child = some above) : above ∈ path := by
  induction ascent with
  | root top =>
    rw [List.mem_singleton.mp member, top] at placed
    contradiction
  | step placed' onward ih =>
    rcases List.mem_cons.mp member with rfl | later
    · obtain rfl := Option.some.inj (placed'.symm.trans placed)
      exact List.mem_cons_of_mem _ onward.self_mem
    · exact List.mem_cons_of_mem _ (ih later)

theorem isChain (ascent : Ascent hierarchy id path) :
    path.IsChain fun child parent => hierarchy.parent? child = some parent := by
  induction ascent with
  | root top => exact .singleton _
  | step placed onward ih => cases onward <;> exact .cons_cons placed ih

theorem getLast_top (ascent : Ascent hierarchy id path) :
    ∃ top, path.getLast? = some top ∧ hierarchy.parent? top = none := by
  induction ascent with
  | @root id top => exact ⟨id, rfl, top⟩
  | step placed onward ih =>
    obtain ⟨top, last, parentless⟩ := ih
    exact ⟨top, by rw [List.getLast?_cons, last]; rfl, parentless⟩

end Ascent

/-- The routes that stand before a route in the list that it was appended to. -/
def earlier (hierarchy : Hierarchy) (id : RouteId) : List RouteId :=
  match hierarchy.placement id with
  | .detached => []
  | .below parent => (hierarchy.children parent).takeWhile (· != id)
  | .root router => (hierarchy.roots router).takeWhile (· != id)

namespace Forest

variable (forest : hierarchy.Forest)
include forest

theorem not_above_self (id : RouteId) : ¬ Relation.TransGen hierarchy.Above id id :=
  fun cycle => forest.above_wellFounded.transGen.irrefl.irrefl id cycle

theorem exists_ascent (id : RouteId) : ∃ path, Ascent hierarchy id path := by
  induction id using forest.above_wellFounded.induction with
  | _ id ih =>
    cases placed : hierarchy.parent? id with
    | none => exact ⟨[id], .root placed⟩
    | some parent =>
      obtain ⟨path, ascent⟩ := ih parent placed
      exact ⟨id :: path, .step placed ascent⟩

/-- A route that has a child was constructed. -/
theorem holds_parent (placed : hierarchy.parent? id = some parent) :
    hierarchy.Holds (.route parent) := by
  by_contra absent
  have member := (forest.mem_members_iff (.route parent) id).mpr (parent?_eq_some_iff.mp placed)
  simp [members, children, node?_eq_none absent] at member

theorem ascent_nodup {path : List RouteId} (ascent : Ascent hierarchy id path) : path.Nodup := by
  induction ascent with
  | root top => exact List.nodup_singleton _
  | step placed onward ih =>
    refine List.nodup_cons.mpr ⟨fun member => ?_, ih⟩
    exact forest.not_above_self _ (.tail' (onward.above_of_mem member) placed)

theorem ascent_holds {path : List RouteId} (ascent : Ascent hierarchy id path)
    (held : hierarchy.Holds (.route id)) :
    ∀ other ∈ path, hierarchy.Holds (.route other) := by
  induction ascent with
  | root top => simpa using held
  | step placed onward ih =>
    simpa using ⟨held, ih (forest.holds_parent placed)⟩

/-- An ascent passes no route twice, so it is no longer than the number of routes. -/
theorem ascent_length_le {path : List RouteId} (ascent : Ascent hierarchy id path)
    (held : hierarchy.Holds (.route id)) : path.length ≤ hierarchy.nodes.size := by
  have distinct : (path.map RouteId.index).Nodup :=
    (forest.ascent_nodup ascent).map fun left right same => by
      cases left; cases right; simpa using same
  have bounded : path.map RouteId.index ⊆ List.range hierarchy.nodes.size := by
    intro index member
    obtain ⟨other, present, rfl⟩ := List.mem_map.mp member
    exact List.mem_range.mpr (forest.ascent_holds ascent held other present)
  simpa using (List.subperm_of_subset distinct bounded).length_le

/-- The climb to the root is complete: the bound on its steps is never reached. -/
theorem ascent (id : RouteId) : Ascent hierarchy id (hierarchy.lineage id).reverse := by
  obtain ⟨path, ascent⟩ := forest.exists_ascent id
  have enough : path.length ≤ hierarchy.nodes.size + 1 := by
    by_cases held : hierarchy.Holds (.route id)
    · exact Nat.le_succ_of_le (forest.ascent_length_le ascent held)
    · cases ascent with
      | root => simp
      | step placed onward => exact (held (holds_of_parent placed)).elim
  rw [lineage, List.reverse_reverse, ascent.climb_eq enough]
  exact ascent

theorem lineage_of_ascent {path : List RouteId} (ascent : Ascent hierarchy id path) :
    hierarchy.lineage id = path.reverse := by
  have unique : ∀ {first second : List RouteId} {id : RouteId}, Ascent hierarchy id first →
      Ascent hierarchy id second → first = second := by
    intro first second id left right
    exact (left.climb_eq (Nat.le_add_right_of_le (Nat.le_max_left first.length second.length))
      ).symm.trans (right.climb_eq (Nat.le_add_right_of_le (Nat.le_max_right _ _)))
  rw [← unique (forest.ascent id) ascent, List.reverse_reverse]

/-- A root is its own lineage. -/
theorem lineage_of_top (top : hierarchy.parent? id = none) : hierarchy.lineage id = [id] :=
  forest.lineage_of_ascent (.root top)

/-- Every other lineage is that of the parent and the route itself. -/
theorem lineage_of_parent (placed : hierarchy.parent? id = some parent) :
    hierarchy.lineage id = hierarchy.lineage parent ++ [id] := by
  rw [forest.lineage_of_ascent (.step placed (forest.ascent parent)), List.reverse_cons,
    List.reverse_reverse]

theorem self_mem_lineage (id : RouteId) : id ∈ hierarchy.lineage id :=
  List.mem_reverse.mp (forest.ascent id).self_mem

theorem parent_mem_lineage {child : RouteId} (member : child ∈ hierarchy.lineage id)
    (placed : hierarchy.parent? child = some parent) : parent ∈ hierarchy.lineage id :=
  List.mem_reverse.mp ((forest.ascent id).parent_mem (List.mem_reverse.mpr member) placed)

/-- A lineage holds the route itself and every route above it. -/
theorem mem_lineage_iff {other : RouteId} :
    other ∈ hierarchy.lineage id ↔ Relation.ReflTransGen hierarchy.Above other id := by
  constructor
  · intro member
    exact (forest.ascent id).above_of_mem (List.mem_reverse.mpr member)
  · intro path
    induction path using Relation.ReflTransGen.head_induction_on with
    | refl => exact forest.self_mem_lineage id
    | head above _ ih => exact forest.parent_mem_lineage ih above

theorem lineage_nodup (id : RouteId) : (hierarchy.lineage id).Nodup :=
  List.nodup_reverse.mp (forest.ascent_nodup (forest.ascent id))

theorem lineage_length_le (held : hierarchy.Holds (.route id)) :
    (hierarchy.lineage id).length ≤ hierarchy.nodes.size := by
  simpa using forest.ascent_length_le (forest.ascent id) held

theorem lineage_getLast? (id : RouteId) : (hierarchy.lineage id).getLast? = some id := by
  have ascent := forest.ascent id
  rw [← List.head?_reverse]
  cases path : (hierarchy.lineage id).reverse with
  | nil => rw [path] at ascent; cases ascent
  | cons head rest => rw [path] at ascent; cases ascent <;> rfl

/-- A lineage starts at a route that is placed below no other. -/
theorem lineage_head? (id : RouteId) :
    ∃ top, (hierarchy.lineage id).head? = some top ∧ hierarchy.parent? top = none := by
  simpa only [List.getLast?_reverse] using (forest.ascent id).getLast_top

theorem lineage_isChain (id : RouteId) : (hierarchy.lineage id).IsChain hierarchy.Above :=
  List.isChain_reverse.mp (forest.ascent id).isChain

/-! ## Owners -/

theorem owner?_of_top (top : hierarchy.parent? id = none) :
    hierarchy.owner? id = (hierarchy.placement id).router? := by
  simp [owner?, forest.lineage_of_top top]

/-- A route below another has the owner of that one. -/
theorem owner?_of_parent (placed : hierarchy.parent? id = some parent) :
    hierarchy.owner? id = hierarchy.owner? parent := by
  obtain ⟨top, first, _⟩ := forest.lineage_head? parent
  simp [owner?, forest.lineage_of_parent placed, first]

theorem owner?_of_mem_lineage {other : RouteId} (member : other ∈ hierarchy.lineage id) :
    hierarchy.owner? other = hierarchy.owner? id := by
  have path := forest.mem_lineage_iff.mp member
  induction path with
  | refl => rfl
  | tail path above ih =>
    rw [forest.owner?_of_parent above]
    exact ih (forest.mem_lineage_iff.mpr path)

/-- The owner of a route is the router from one of whose roots it is reached downwards. -/
theorem owner?_eq_some_iff {router : RouterId} :
    hierarchy.owner? id = some router ↔ ∃ root ∈ hierarchy.roots router,
      Relation.ReflTransGen (fun above below => below ∈ hierarchy.children above) root id := by
  constructor
  · intro owned
    induction id using forest.above_wellFounded.induction with
    | _ id ih =>
      cases placed : hierarchy.parent? id with
      | none =>
        rw [forest.owner?_of_top placed] at owned
        exact ⟨id, (forest.mem_members_iff (.router router) id).mpr
          (Placement.router?_eq_some_iff.mp owned), .refl⟩
      | some parent =>
        rw [forest.owner?_of_parent placed] at owned
        obtain ⟨root, member, path⟩ := ih parent placed owned
        exact ⟨root, member, path.tail
          ((forest.mem_members_iff (.route parent) id).mpr (parent?_eq_some_iff.mp placed))⟩
  · rintro ⟨root, member, path⟩
    induction path with
    | refl =>
      have placed := (forest.mem_members_iff (.router router) root).mp member
      have top : hierarchy.parent? root = none := by simp [parent?, placed, Placement.ofTarget,
        Placement.parent?]
      rw [forest.owner?_of_top top, placed]
      rfl
    | @tail above below _ child ih =>
      have placed := (forest.mem_members_iff (.route above) below).mp child
      rw [forest.owner?_of_parent (parent?_eq_some_iff.mpr placed), ih]

/-! ## The ends of a lineage -/

theorem lineage_eq_append (id : RouteId) :
    ∃ above, hierarchy.lineage id = above ++ [id] :=
  List.getLast?_eq_some_iff.mp (forest.lineage_getLast? id)

/-- A route that is owned was constructed, and so was every route of its lineage. -/
theorem lineage_holds {router : RouterId} (owned : hierarchy.owner? id = some router) :
    ∀ above ∈ hierarchy.lineage id, hierarchy.Holds (.route above) := by
  have held : hierarchy.Holds (.route id) := by
    by_contra absent
    rw [forest.owner?_of_top (parent?_eq_none absent), placement, node?_eq_none absent] at owned
    contradiction
  intro above member
  exact forest.ascent_holds (forest.ascent id) held above (List.mem_reverse.mpr member)

theorem exists_route {router : RouterId} (owned : hierarchy.owner? id = some router) :
    ∃ route, hierarchy.route? id = some route := by
  obtain ⟨node, found⟩ := exists_node (forest.lineage_holds owned id (forest.self_mem_lineage id))
  exact ⟨node.route, route?_of_node? found⟩

/-- The lineage of an owned route starts at a root route of the owner. -/
theorem lineage_eq_cons {router : RouterId} (owned : hierarchy.owner? id = some router) :
    ∃ top below, hierarchy.lineage id = top :: below ∧ top ∈ hierarchy.roots router := by
  obtain ⟨top, first, placed⟩ := Option.bind_eq_some_iff.mp owned
  obtain ⟨below, lineage⟩ := List.head?_eq_some_iff.mp first
  exact ⟨top, below, lineage, (forest.mem_members_iff (.router router) top).mpr
    (Placement.router?_eq_some_iff.mp placed)⟩

/-! ## Places in a list -/

/-- A route divides the list that it was appended to. -/
theorem members_eq_append {target : Handle}
    (placed : hierarchy.placement id = .ofTarget target) :
    ∃ after, hierarchy.members target = hierarchy.earlier id ++ id :: after := by
  have member := (forest.mem_members_iff target id).mpr placed
  have earlier_eq : hierarchy.earlier id = (hierarchy.members target).takeWhile (· != id) := by
    cases target <;> simp [earlier, placed, Placement.ofTarget, members]
  have split := List.takeWhile_append_dropWhile (p := (· != id)) (l := hierarchy.members target)
  cases onward : (hierarchy.members target).dropWhile (· != id) with
  | nil =>
    have passed := List.dropWhile_eq_nil_iff.mp onward id member
    simp at passed
  | cons first after =>
    have stopped := List.head?_dropWhile_not (· != id) (hierarchy.members target)
    rw [onward] at stopped
    obtain rfl : first = id := by simpa using stopped
    exact ⟨after, by rw [earlier_eq, ← onward, split]⟩

end Forest

end RouteTree.Hierarchy
