import RouteTree.Proofs.Hierarchy.Descent

/-! # The order of registration

`preorder` lists the routes below some starting routes the way they were registered: every route
before what is below it, and all that is below a route before its next sibling. In a forest no route
is listed twice, because two subtrees with a route in common have their roots on one lineage, where
no two routes are siblings.
-/

namespace RouteTree

namespace Tree

mutual

/-- The routes of a tree, each before those below it. -/
def preorder : Tree → List RouteId
  | .node id _ children => id :: preorderOfAll children

/-- The routes of several trees, one tree after the other. -/
def preorderOfAll : List Tree → List RouteId
  | [] => []
  | tree :: trees => preorder tree ++ preorderOfAll trees

end

theorem preorderOfAll_eq_flatMap (trees : List Tree) :
    preorderOfAll trees = trees.flatMap preorder := by
  induction trees with
  | nil => rfl
  | cons tree trees ih => rw [preorderOfAll, List.flatMap_cons, ih]

end Tree

namespace Hierarchy

variable {hierarchy : Hierarchy} {id other : RouteId}

/-- The routes at and below some starting routes, in the order of registration. -/
def preorder (hierarchy : Hierarchy) (starts : List RouteId) : List RouteId :=
  Tree.preorderOfAll (starts.filterMap hierarchy.tree?)

/-- A route comes before another one in the order of registration: it stands above that one, or the
two are reached from siblings, the one from an earlier sibling than the other. The starting routes
count as siblings. -/
inductive Precedes (hierarchy : Hierarchy) (starts : List RouteId) : RouteId → RouteId → Prop
  | above {id other : RouteId} (below : Relation.TransGen hierarchy.Above id other) :
      Precedes hierarchy starts id other
  | beside {siblings : List RouteId} {earlier later id other : RouteId}
      (family : siblings = starts ∨ ∃ parent, siblings = hierarchy.children parent)
      (order : [earlier, later].Sublist siblings)
      (left : Relation.ReflTransGen hierarchy.Above earlier id)
      (right : Relation.ReflTransGen hierarchy.Above later other) :
      Precedes hierarchy starts id other

theorem preorder_eq_flatMap (hierarchy : Hierarchy) (starts : List RouteId) :
    hierarchy.preorder starts = starts.flatMap fun id => hierarchy.preorder [id] := by
  simp only [preorder, Tree.preorderOfAll_eq_flatMap]
  induction starts with
  | nil => rfl
  | cons id rest ih =>
    rw [List.flatMap_cons, ← ih]
    cases present : hierarchy.tree? id <;> simp [present]

namespace Forest

variable (forest : hierarchy.Forest)
include forest

theorem preorder_singleton (id : RouteId) :
    hierarchy.preorder [id] = (hierarchy.node? id).elim [] fun node =>
      id :: hierarchy.preorder node.children := by
  have tree := forest.tree?_eq id
  cases found : hierarchy.node? id <;>
    simp [preorder, tree, found, Tree.preorderOfAll, Tree.preorder]

/-- What is listed from a route on is the route and all that is below it. -/
theorem mem_preorder_singleton_iff :
    other ∈ hierarchy.preorder [id] ↔
      hierarchy.Holds (.route id) ∧ Relation.ReflTransGen hierarchy.Above id other := by
  induction id using forest.below_wellFounded.induction with
  | _ id ih =>
    rw [forest.preorder_singleton, ← node?_isSome_iff]
    cases found : hierarchy.node? id with
    | none => simp
    | some node =>
      simp only [Option.elim_some, Option.isSome_some, true_and, List.mem_cons]
      rw [preorder_eq_flatMap, List.mem_flatMap]
      constructor
      · rintro (rfl | ⟨child, listed, member⟩)
        · exact .refl
        · have above := forest.parent?_of_mem_children found listed
          exact .head above ((ih child above).mp member).2
      · intro path
        rcases Relation.ReflTransGen.cases_head path with rfl | ⟨child, above, onward⟩
        · exact .inl rfl
        · have placed := (forest.mem_members_iff (.route id) child).mpr
            (parent?_eq_some_iff.mp above)
          have listed : child ∈ node.children := by simpa [members, children, found] using placed
          exact .inr ⟨child, listed, (ih child above).mpr
            ⟨forest.holds_of_mem_children found listed, onward⟩⟩

/-- What is listed from the children of a route on stands below that route. -/
theorem transGen_of_mem_preorder_children {node : Node} (found : hierarchy.node? id = some node)
    (member : other ∈ hierarchy.preorder node.children) :
    Relation.TransGen hierarchy.Above id other := by
  rw [preorder_eq_flatMap] at member
  obtain ⟨child, listed, reached⟩ := List.mem_flatMap.mp member
  exact .head' (forest.parent?_of_mem_children found listed)
    (forest.mem_preorder_singleton_iff.mp reached).2

/-- Two siblings with a route in common below them are the same. -/
theorem eq_of_same_parent {first second : RouteId}
    (siblings : hierarchy.parent? first = hierarchy.parent? second)
    (left : Relation.ReflTransGen hierarchy.Above first other)
    (right : Relation.ReflTransGen hierarchy.Above second other) : first = second := by
  have descends : ∀ {upper lower : RouteId}, hierarchy.parent? upper = hierarchy.parent? lower →
      Relation.ReflTransGen hierarchy.Above upper lower → upper = lower := by
    intro upper lower same path
    rcases Relation.ReflTransGen.cases_tail path with rfl | ⟨parent, onward, above⟩
    · rfl
    · -- The path passes the parent that both share, so that the upper route is above itself.
      exact (forest.not_above_self upper (.tail' onward (same.trans above))).elim
  have unique : Relator.RightUnique (Function.swap hierarchy.Above) :=
    fun _ _ _ one two => Option.some.inj (one.symm.trans two)
  rcases Relation.ReflTransGen.total_of_right_unique unique
    (Relation.reflTransGen_swap.mpr left) (Relation.reflTransGen_swap.mpr right) with path | path
  · exact (descends siblings.symm (Relation.reflTransGen_swap.mp path)).symm
  · exact descends siblings (Relation.reflTransGen_swap.mp path)

/-- Siblings have no route in common below them. -/
theorem pairwise_disjoint_preorder {ids : List RouteId} (distinct : ids.Nodup)
    (siblings : ∀ first ∈ ids, ∀ second ∈ ids,
      hierarchy.parent? first = hierarchy.parent? second) :
    ids.Pairwise (Function.onFun List.Disjoint fun id => hierarchy.preorder [id]) := by
  refine distinct.imp_of_mem fun {first second} left right different => ?_
  intro other inFirst inSecond
  exact different (forest.eq_of_same_parent (siblings first left second right)
    (forest.mem_preorder_singleton_iff.mp inFirst).2
    (forest.mem_preorder_singleton_iff.mp inSecond).2)

theorem preorder_singleton_nodup (id : RouteId) : (hierarchy.preorder [id]).Nodup := by
  induction id using forest.below_wellFounded.induction with
  | _ id ih =>
    rw [forest.preorder_singleton]
    cases found : hierarchy.node? id with
    | none => exact List.nodup_nil
    | some node =>
      have above : ∀ child ∈ node.children, hierarchy.parent? child = some id :=
        fun _ => forest.parent?_of_mem_children found
      have distinct : node.children.Nodup := by
        simpa [members, children, found] using forest.members_nodup (.route id)
      refine List.nodup_cons.mpr ⟨fun inside => forest.not_above_self id
        (forest.transGen_of_mem_preorder_children found inside), ?_⟩
      rw [preorder_eq_flatMap]
      exact List.nodup_flatMap.mpr ⟨fun child member => ih child (above child member),
        forest.pairwise_disjoint_preorder distinct fun first left second right =>
          (above first left).trans (above second right).symm⟩

/-- No route is listed twice from starting routes that differ and have the same parent or none. -/
theorem preorder_nodup {starts : List RouteId} (distinct : starts.Nodup)
    (siblings : ∀ first ∈ starts, ∀ second ∈ starts,
      hierarchy.parent? first = hierarchy.parent? second) :
    (hierarchy.preorder starts).Nodup := by
  rw [preorder_eq_flatMap]
  exact List.nodup_flatMap.mpr ⟨fun id _ => forest.preorder_singleton_nodup id,
    forest.pairwise_disjoint_preorder distinct siblings⟩

/-- If the lists from all routes of a family keep the order, so do these lists joined. -/
theorem preorder_pairwise_of_family {starts ids : List RouteId}
    (family : ids = starts ∨ ∃ parent, ids = hierarchy.children parent)
    (within : ∀ id ∈ ids, (hierarchy.preorder [id]).Pairwise (hierarchy.Precedes starts)) :
    (hierarchy.preorder ids).Pairwise (hierarchy.Precedes starts) := by
  rw [preorder_eq_flatMap, List.pairwise_flatMap]
  refine ⟨within, List.pairwise_iff_forall_sublist.mpr fun order => ?_⟩
  intro id left other right
  exact .beside family order (forest.mem_preorder_singleton_iff.mp left).2
    (forest.mem_preorder_singleton_iff.mp right).2

theorem preorder_singleton_pairwise (starts : List RouteId) (id : RouteId) :
    (hierarchy.preorder [id]).Pairwise (hierarchy.Precedes starts) := by
  induction id using forest.below_wellFounded.induction with
  | _ id ih =>
    rw [forest.preorder_singleton]
    cases found : hierarchy.node? id with
    | none => exact List.Pairwise.nil
    | some node =>
      have listed : node.children = hierarchy.children id := by simp [children, found]
      have above : ∀ child ∈ node.children, hierarchy.Above id child :=
        fun _ => forest.parent?_of_mem_children found
      exact List.pairwise_cons.mpr
        ⟨fun other inside => .above (forest.transGen_of_mem_preorder_children found inside),
          forest.preorder_pairwise_of_family (.inr ⟨id, listed⟩)
            fun child member => ih child (above child member)⟩

/-- The list keeps the order of registration. -/
theorem preorder_pairwise (starts : List RouteId) :
    (hierarchy.preorder starts).Pairwise (hierarchy.Precedes starts) :=
  forest.preorder_pairwise_of_family (.inl rfl) fun id _ =>
    forest.preorder_singleton_pairwise starts id

end Forest

end Hierarchy

end RouteTree
