import RouteTree.Hierarchy.Basic
import RouteTree.Tree

/-! # Descending a hierarchy

The tree below a route is read off the lists of children. No branch is longer than the number of
routes, so that many levels hold everything.
-/

namespace RouteTree.Hierarchy

/-- The topmost `levels` levels of the tree below a route. -/
def unfold (hierarchy : Hierarchy) : Nat → RouteId → Option Tree
  | 0, _ => none
  | levels + 1, id =>
    (hierarchy.node? id).map fun node =>
      .node id node.route (node.children.filterMap (hierarchy.unfold levels))

/-- The tree below a route. -/
def tree? (hierarchy : Hierarchy) (id : RouteId) : Option Tree :=
  hierarchy.unfold hierarchy.nodes.size id

/-- The trees below a router's root routes. -/
def trees (hierarchy : Hierarchy) (id : RouterId) : List Tree :=
  (hierarchy.roots id).filterMap hierarchy.tree?

end RouteTree.Hierarchy
