import RouteTree.Hierarchy.Subtree
import RouteTree.Proofs.Hierarchy.Forest

/-! # Descending a forest

`Hierarchy.unfold` stops after as many levels as there are routes. In a forest it never gets that
far: a child's lineage is longer than that of its parent, and none is longer than the number of
routes. The tree below a route is therefore made of the trees below its children.
-/

namespace RouteTree.Hierarchy

variable {hierarchy : Hierarchy}

namespace Forest

variable (forest : hierarchy.Forest)
include forest

/-- A route is the parent of its children. -/
theorem above_of_mem_children {parent child : RouteId}
    (member : child ∈ hierarchy.children parent) : hierarchy.Above parent child :=
  parent?_eq_some_iff.mpr ((forest.mem_members_iff (.route parent) child).mp member)

theorem parent?_of_mem_children {id child : RouteId} {node : Node}
    (found : hierarchy.node? id = some node) (member : child ∈ node.children) :
    hierarchy.parent? child = some id :=
  forest.above_of_mem_children (by simpa [children, found] using member)

/-- One more level changes nothing once the levels reach the deepest route. -/
theorem unfold_succ {levels : Nat} {id : RouteId}
    (enough : hierarchy.nodes.size < levels + (hierarchy.lineage id).length) :
    hierarchy.unfold (levels + 1) id = hierarchy.unfold levels id := by
  induction levels generalizing id with
  | zero =>
    have absent : ¬ hierarchy.Holds (.route id) := by
      intro held
      have bounded := forest.lineage_length_le held
      omega
    simp [unfold, node?_eq_none absent]
  | succ levels ih =>
    rw [unfold, unfold]
    cases found : hierarchy.node? id with
    | none => rfl
    | some node =>
      have same : ∀ child ∈ node.children,
          hierarchy.unfold (levels + 1) child = hierarchy.unfold levels child := by
        intro child member
        have deeper := forest.lineage_of_parent (forest.parent?_of_mem_children found member)
        refine ih ?_
        rw [deeper, List.length_append, List.length_singleton]
        omega
      rw [Option.map_some, Option.map_some, List.filterMap_congr same]

/-- The tree below a route is the route with the trees below its children. -/
theorem tree?_eq (id : RouteId) :
    hierarchy.tree? id = (hierarchy.node? id).map fun node =>
      .node id node.route (node.children.filterMap hierarchy.tree?) := by
  have present := List.length_pos_of_mem (forest.self_mem_lineage id)
  rw [tree?, ← forest.unfold_succ (by omega), unfold]
  rfl

/-- What is listed below a route was constructed. -/
theorem holds_of_mem_children {id child : RouteId} {node : Node}
    (found : hierarchy.node? id = some node) (member : child ∈ node.children) :
    hierarchy.Holds (.route child) :=
  holds_of_parent (forest.parent?_of_mem_children found member)

theorem exists_tree {id : RouteId} (held : hierarchy.Holds (.route id)) :
    ∃ tree, hierarchy.tree? id = some tree := by
  obtain ⟨node, found⟩ := exists_node held
  exact ⟨_, by rw [forest.tree?_eq, found]; rfl⟩

/-- Every child of a route has a tree, so a route without trees below it has no children. -/
theorem isEmpty_filterMap_tree? {id : RouteId} {node : Node}
    (found : hierarchy.node? id = some node) :
    (node.children.filterMap hierarchy.tree?).isEmpty = node.children.isEmpty := by
  have held : ∀ child ∈ node.children, hierarchy.Holds (.route child) :=
    fun _ => forest.holds_of_mem_children found
  cases listed : node.children with
  | nil => rfl
  | cons child rest =>
    obtain ⟨tree, present⟩ := forest.exists_tree (held child (by simp [listed]))
    simp [present]

/-- Every way down ends: a child's lineage is longer than its parent's, and none is longer than the
number of routes. -/
theorem below_wellFounded : WellFounded fun child id => hierarchy.Above id child := by
  refine Subrelation.wf ?_
    (measure fun id => hierarchy.nodes.size - (hierarchy.lineage id).length).wf
  intro child id above
  have bounded := forest.lineage_length_le (holds_of_parent above)
  rw [forest.lineage_of_parent above, List.length_append, List.length_singleton] at bounded
  change hierarchy.nodes.size - (hierarchy.lineage child).length <
    hierarchy.nodes.size - (hierarchy.lineage id).length
  rw [forest.lineage_of_parent above, List.length_append, List.length_singleton]
  omega

end Forest

end RouteTree.Hierarchy
