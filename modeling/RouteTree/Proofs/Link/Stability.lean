import RouteTree.Link
import RouteTree.Proofs.Hierarchy.Growth

/-! # Links are stable

A link is made of the patterns of a lineage and of the mount of the router that owns it. Neither
changes once the route is owned, so a link that was given once is given again after any calls.
`build_continues` says this together with all else that a hierarchy keeps.
-/

namespace RouteTree.Hierarchy

variable {before after : Hierarchy} {id : RouteId} {router : RouterId}

theorem patterns_eq_filterMap_route? (hierarchy : Hierarchy) (id : RouteId) :
    hierarchy.patterns id =
      (hierarchy.lineage id).filterMap fun above =>
        (hierarchy.route? above).bind Route.pattern := by
  rw [patterns]
  refine List.filterMap_congr fun above _ => ?_
  rw [route?]
  cases hierarchy.node? above <;> rfl

theorem mount_eq_config? (hierarchy : Hierarchy) (router : RouterId) :
    (hierarchy.router? router).elim "" (·.config.mount) =
      (hierarchy.config? router).elim "" Config.mount := by
  rw [config?]
  cases hierarchy.router? router <;> rfl

/-- A router that owns a route was constructed. -/
theorem Forest.exists_config (forest : before.Forest)
    (owned : before.owner? id = some router) : ∃ config, before.config? router = some config := by
  obtain ⟨top, _, _, root⟩ := forest.lineage_eq_cons owned
  have listed : top ∈ before.members (.router router) := root
  have held : before.Holds (.router router) := holds_of_mem_members listed
  exact ⟨before.routers[router.index].config, by
    rw [config?, router?, Array.getElem?_eq_getElem held]; rfl⟩

namespace Grown

variable (grown : Grown before after) (forest : before.Forest) (later : after.Forest)
include grown forest later

theorem patterns_eq (owned : before.owner? id = some router) :
    after.patterns id = before.patterns id := by
  rw [patterns_eq_filterMap_route?, patterns_eq_filterMap_route?,
    (grown.kept_of_owned forest later owned).2]
  refine List.filterMap_congr fun above member => ?_
  obtain ⟨route, found⟩ :=
    forest.exists_route ((forest.owner?_of_mem_lineage member).trans owned)
  rw [found, grown.route? found]

/-- The owner of a route answers for it as before: with the same link or the same missing name. -/
theorem link_eq (owned : before.owner? id = some router) (arguments : Entries) :
    after.link router id arguments = before.link router id arguments := by
  obtain ⟨config, configured⟩ := forest.exists_config owned
  simp only [link, linkParts, mount_eq_config?, grown.config? configured, configured, owned,
    (grown.kept_of_owned forest later owned).1, grown.patterns_eq forest later owned]

end Grown

theorem owner?_of_link {hierarchy : Hierarchy} {arguments : Entries} {text : String}
    (given : hierarchy.link router id arguments = .ok text) :
    hierarchy.owner? id = some router := by
  by_contra foreign
  rw [link_of_not_owned foreign] at given
  contradiction

/-- What a hierarchy keeps of an earlier one. -/
structure Continues (before after : Hierarchy) : Prop where
  /-- A parent that was set is never changed. -/
  parent? : ∀ id parent, before.parent? id = some parent → after.parent? id = some parent
  /-- A route that was appended stays appended. -/
  isAppended : ∀ id, before.isAppended id = true → after.isAppended id = true
  children : ∀ id, before.children id <+: after.children id
  roots : ∀ router, before.roots router <+: after.roots router
  lineage : ∀ id, before.lineage id <:+ after.lineage id
  /-- A route that a router owns stays with it, and its lineage does not change any more. -/
  owned : ∀ id router, before.owner? id = some router →
    after.owner? id = some router ∧ after.lineage id = before.lineage id
  /-- A link that was given is given again. -/
  link : ∀ router id arguments text, before.link router id arguments = .ok text →
    after.link router id arguments = .ok text

/-- Whatever calls follow, places, lists, lineages, owners and links continue what they were. -/
theorem build_continues (edits later : List Edit) :
    Continues (build edits) (build (edits ++ later)) :=
  have grown := grown_build_append edits later
  have forest := forest_build edits
  have continued := forest_build (edits ++ later)
  { parent? := fun _ _ => grown.parent?
    isAppended := fun _ => grown.isAppended
    children := fun id => grown.members (.route id)
    roots := fun router => grown.members (.router router)
    lineage := grown.lineage_suffix forest continued
    owned := fun _ _ => grown.kept_of_owned forest continued
    link := fun _ _ arguments _ given => by
      rw [grown.link_eq forest continued (owner?_of_link given) arguments, given] }

end RouteTree.Hierarchy
