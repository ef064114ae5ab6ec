import RouteTree.Proofs.Hierarchy.Building

/-! # Building without mounts

No call reads the mount of a router. The calls that built a hierarchy therefore build the same one
without mounts when no router is given any: leaving the mounts out commutes with every call.
-/

namespace RouteTree

/-- The same configuration without a mount. -/
def Config.withoutMount (config : Config) : Config :=
  { config with mount := "" }

def Router.withoutMount (router : Router) : Router :=
  { router with config := router.config.withoutMount }

namespace Hierarchy

variable {hierarchy : Hierarchy}

/-- The same hierarchy with routers that have no mount. -/
def withoutMounts (hierarchy : Hierarchy) : Hierarchy :=
  { hierarchy with routers := hierarchy.routers.map Router.withoutMount }

/-- The same call, with no mount for a router. -/
def Edit.withoutMount : Edit → Edit
  | .router _ decodesSegments => .router "" decodesSegments
  | edit => edit

theorem router?_withoutMounts (hierarchy : Hierarchy) (id : RouterId) :
    hierarchy.withoutMounts.router? id = (hierarchy.router? id).map Router.withoutMount := by
  simp [withoutMounts, router?]

theorem roots_withoutMounts (hierarchy : Hierarchy) (id : RouterId) :
    hierarchy.withoutMounts.roots id = hierarchy.roots id := by
  rw [roots, roots, router?_withoutMounts]
  cases hierarchy.router? id <;> rfl

theorem config?_withoutMounts (hierarchy : Hierarchy) (id : RouterId) :
    hierarchy.withoutMounts.config? id = (hierarchy.config? id).map Config.withoutMount := by
  rw [config?, config?, router?_withoutMounts, Option.map_map, Option.map_map]
  rfl

theorem holds_withoutMounts (hierarchy : Hierarchy) (handle : Handle) :
    hierarchy.withoutMounts.Holds handle ↔ hierarchy.Holds handle := by
  cases handle <;> simp [Holds, withoutMounts]

theorem lineage_withoutMounts (hierarchy : Hierarchy) (id : RouteId) :
    hierarchy.withoutMounts.lineage id = hierarchy.lineage id := by
  have climbs : ∀ steps id, hierarchy.withoutMounts.climb steps id = hierarchy.climb steps id := by
    intro steps
    induction steps with
    | zero => exact fun _ => rfl
    | succ steps ih =>
      intro id
      simp only [climb, ih]
      rfl
  exact congrArg List.reverse (climbs _ id)

theorem attach_withoutMounts (hierarchy : Hierarchy) (target : Handle) (batch : List RouteId) :
    hierarchy.withoutMounts.attach target batch =
      (hierarchy.attach target batch).withoutMounts := by
  have placed : batch.foldl (fun current id => current.place (.ofTarget target) id)
        hierarchy.withoutMounts =
      (batch.foldl (fun current id => current.place (.ofTarget target) id)
        hierarchy).withoutMounts :=
    List.foldl_hom withoutMounts fun _ _ => rfl
  rw [attach, placed, attach]
  cases target with
  | route id => rfl
  | router id =>
    simp only [extend, withoutMounts, mk.injEq, true_and]
    refine Array.ext (by simp) fun index _ _ => ?_
    simp only [Array.getElem_modify, Array.getElem_map]
    split <;> rfl

theorem append_withoutMounts (hierarchy : Hierarchy) (target : Handle) (batch : List RouteId) :
    hierarchy.withoutMounts.append target batch =
      (hierarchy.append target batch).map withoutMounts := by
  have appended : hierarchy.withoutMounts.isAppended = hierarchy.isAppended := rfl
  have barred : hierarchy.withoutMounts.barred target = hierarchy.barred target := by
    cases target with
    | route id => exact lineage_withoutMounts hierarchy id
    | router id => rfl
  rw [append, append, appended, barred, attach_withoutMounts]
  split_ifs <;> rfl

/-- Leaving the mounts out commutes with every call. -/
theorem edit_withoutMount (hierarchy : Hierarchy) (edit : Edit) :
    hierarchy.withoutMounts.edit edit.withoutMount = (hierarchy.edit edit).withoutMounts := by
  cases edit with
  | route spec =>
    simp only [Edit.withoutMount, Hierarchy.edit]
    split <;> rfl
  | router mount decodesSegments =>
    simp only [Edit.withoutMount, Hierarchy.edit, addRouter, withoutMounts, Array.map_push]
    rfl
  | append target batch =>
    simp only [Edit.withoutMount, Hierarchy.edit, holds_withoutMounts, append_withoutMounts]
    split_ifs
    · cases hierarchy.append target batch <;> rfl
    · rfl

theorem editAll_withoutMount (hierarchy : Hierarchy) (edits : List Edit) :
    hierarchy.withoutMounts.editAll (edits.map Edit.withoutMount) =
      (hierarchy.editAll edits).withoutMounts := by
  induction edits generalizing hierarchy with
  | nil => rfl
  | cons first rest ih =>
    change (hierarchy.withoutMounts.edit first.withoutMount).editAll _ = _
    rw [edit_withoutMount]
    exact ih (hierarchy.edit first)

theorem build_withoutMount (edits : List Edit) :
    build (edits.map Edit.withoutMount) = (build edits).withoutMounts := by
  have initial : empty.withoutMounts = empty := by simp [withoutMounts, empty]
  rw [build, build, ← editAll_withoutMount, initial]

end Hierarchy

end RouteTree
