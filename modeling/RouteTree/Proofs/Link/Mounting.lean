import RouteTree.Proofs.Hierarchy.Unmounting
import RouteTree.Proofs.Link.Decoding
import RouteTree.Proofs.Link.Stability
import RouteTree.Proofs.Selection.Twins

/-! # A mount is transparent

A router below a mount reads the mount off a path and writes it before a link. What follows the
mount has to start with a slash or with a mark that ends a path, for the mount is a whole number of
segments; it is then read as the same text is read without a mount. Everything else that the router
does is done by what was read, so a twin without the mount does the same.
-/

namespace RouteTree

/-- A text that may follow a mount: none at all, or one that starts with a slash or with a mark that
ends a path. -/
def FollowsMount (text : String) : Prop :=
  ∀ first ∈ text.toList.head?, first ∈ ['/', '?', '#']

instance (text : String) : Decidable (FollowsMount text) :=
  inferInstanceAs (Decidable (∀ first ∈ text.toList.head?, first ∈ ['/', '?', '#']))

namespace Address

variable {config : Config} {mount path rest : List Char} {text : String}

/-- A text may follow a mount when the path in it is empty or starts with a slash. -/
theorem followsMount_iff :
    FollowsMount text ↔
      (Text.before '?' (Text.before '#' text.toList)).head?.all (· == '/') = true := by
  simp only [FollowsMount, Text.before, List.head?_takeWhile]
  cases text.toList.head? with
  | none => simp
  | some first =>
    by_cases query : first = '?'
    · simp [query]
    · by_cases fragment : first = '#'
      · simp [fragment]
      · simp [query, fragment]

/-- Of the paths that start with a mount, those lie below it that end there or go on with a
slash. -/
theorem below?_mount (mounted : mount ≠ []) (path : List Char) :
    below? mount (mount ++ path) =
      if path.head?.all (· == '/') then some path else none := by
  rw [below?, if_neg (by simpa using mounted)]
  cases path with
  | nil => simp
  | cons first rest =>
    have divided : (mount ++ ['/']).isPrefixOf (mount ++ first :: rest) = true ↔ first = '/' := by
      rw [List.isPrefixOf_iff_prefix, List.prefix_append_right_inj, List.cons_prefix_cons]
      simp [eq_comm]
    by_cases slash : first = '/' <;> simp [divided, slash]

/-- A path is its mount and the part below it. -/
theorem append_of_below? (inside : below? mount path = some rest) : mount ++ rest = path := by
  rw [below?] at inside
  split_ifs at inside with none same
  · rw [List.isEmpty_iff.mp none, List.nil_append]
    exact (Option.some.inj inside).symm
  · obtain rfl := Option.some.inj inside
    have starts : mount <+: path := by
      rw [Bool.or_eq_true, decide_eq_true_iff, List.isPrefixOf_iff_prefix] at same
      rcases same with rfl | divided
      · exact List.prefix_rfl
      · exact (List.prefix_append mount ['/']).trans divided
    exact List.prefix_iff_eq_append.mp starts

theorem prefix_of_below? (inside : below? mount path = some rest) : mount <+: path :=
  ⟨rest, append_of_below? inside⟩

/-- A text that does not start with the mount lies outside. -/
theorem parse?_of_not_prefix (outside : ¬ config.mount.toList <+: text.toList) :
    parse? config text = none := by
  cases parsed : parse? config text with
  | none => rfl
  | some address =>
    obtain ⟨inside, below, _⟩ := Option.map_eq_some_iff.mp parsed
    exact (outside ((prefix_of_below? below).trans
      ((Text.before_prefix '?' _).trans (Text.before_prefix '#' _)))).elim

theorem parse?_withoutMount (config : Config) (text : String) :
    parse? config.withoutMount text = some (ofParts config
      (Text.before '?' (Text.before '#' text.toList))
      (Text.after '?' (Text.before '#' text.toList))) :=
  rfl

section

variable (mounted : config.mount ≠ "") (noQuery : '?' ∉ config.mount.toList)
  (noFragment : '#' ∉ config.mount.toList)
include mounted noQuery noFragment

/-- What follows the mount is read as it is read without the mount. -/
theorem parse?_mount (text : String) :
    parse? config (config.mount ++ text) =
      if FollowsMount text then parse? config.withoutMount text else none := by
  have present : config.mount.toList ≠ [] := by simpa using mounted
  have path : Text.before '?' (Text.before '#' (config.mount ++ text).toList) =
      config.mount.toList ++ Text.before '?' (Text.before '#' text.toList) := by
    rw [String.toList_append, Text.before_append noFragment, Text.before_append noQuery]
  have query : Text.after '?' (Text.before '#' (config.mount ++ text).toList) =
      Text.after '?' (Text.before '#' text.toList) := by
    rw [String.toList_append, Text.before_append noFragment, Text.after_append noQuery]
  simp only [parse?, path, query, below?_mount present, ← followsMount_iff]
  split
  · exact (parse?_withoutMount config text).symm
  · rfl

end

end Address

namespace Link

/-- The mount is written before a link. -/
theorem text_eq_append (mount : String) (link : Link) :
    link.text mount = mount ++ link.text "" := by
  simp [text]

end Link

namespace Hierarchy

variable {hierarchy mirror : Hierarchy} {router router' : RouterId} {twin : RouteId → RouteId}
  {id other : RouteId} {config : Config}

namespace Twins

variable (twins : Twins hierarchy mirror router router' twin) (forest : hierarchy.Forest)
  (mirrored : mirror.Forest)
include twins forest mirrored

theorem patterns_twin (owned : hierarchy.owner? id = some router) :
    mirror.patterns (twin id) = hierarchy.patterns id := by
  rw [patterns_eq_filterMap_route?, patterns_eq_filterMap_route?,
    (twins.lineage_twin forest mirrored owned).1, List.filterMap_map]
  refine List.filterMap_congr fun above member => ?_
  rw [Function.comp_apply, twins.route? above ((forest.owner?_of_mem_lineage member).trans owned)]

/-- A link to a route is the mount and the link to its twin. -/
theorem link_twin (given : hierarchy.config? router = some config)
    (given' : mirror.config? router' = some config.withoutMount)
    (owned : hierarchy.owner? id = some router) (arguments : Entries) :
    hierarchy.link router id arguments =
      (mirror.link router' (twin id) arguments).map (config.mount ++ ·) := by
  obtain ⟨_, owned'⟩ := twins.lineage_twin forest mirrored owned
  simp only [link, linkParts, mount_eq_config?, given, given', owned, owned', ne_eq,
    not_true_eq_false, if_false, twins.patterns_twin forest mirrored owned]
  cases Link.ofPatterns arguments [] false (hierarchy.patterns id) with
  | error missing => rfl
  | ok parts => exact congrArg Except.ok (parts.text_eq_append config.mount)

end Twins

/-- The same calls without any mount build the same trees, for every router. -/
theorem twins_withoutMount (edits : List Edit) (router : RouterId) :
    Twins (build edits) (build (edits.map Edit.withoutMount)) router router fun id => id := by
  rw [build_withoutMount]
  refine ⟨?_, fun _ _ => rfl, fun _ _ => (List.map_id _).symm⟩
  rw [roots_withoutMounts, List.map_id']

end Hierarchy

/-- What the mount of a configuration means for the texts that are read with it. -/
structure Config.Transparent (config : Config) : Prop where
  /-- A text after the mount is read only where one may follow it. -/
  isSome_iff : ∀ text,
    (Address.parse? config (config.mount ++ text)).isSome ↔ FollowsMount text
  /-- It is then read as it is without the mount. -/
  parse?_eq : ∀ text, FollowsMount text →
    Address.parse? config (config.mount ++ text) = Address.parse? config.withoutMount text
  outside : ∀ text, ¬ config.mount.toList <+: text.toList → Address.parse? config text = none

/-- A router below a mount does what its twin without the mount does. -/
structure Hierarchy.ActsAs (hierarchy mirror : Hierarchy) (router router' : RouterId)
    (twin : RouteId → RouteId) (mount : String) : Prop where
  select : ∀ context text, FollowsMount text →
    Run.Mirrors twin (Outcome.rename twin) (hierarchy.selectPath router context (mount ++ text))
      (mirror.selectPath router' context text)
  dispatch : ∀ context text, FollowsMount text →
    Run.Mirrors twin (Dispatch.rename twin) (hierarchy.dispatch router context (mount ++ text))
      (mirror.dispatch router' context text)
  /-- Links differ in the mount alone, and a name that is missing for one is missing for both. -/
  link : ∀ id, hierarchy.owner? id = some router → ∀ arguments,
    hierarchy.link router id arguments =
      (mirror.link router' (twin id) arguments).map (mount ++ ·)
  /-- Either router refuses the routes that it does not own. -/
  foreign : ∀ id other, hierarchy.owner? id ≠ some router → mirror.owner? other ≠ some router' →
    ∀ arguments, hierarchy.link router id arguments = .error .notInHierarchy ∧
      mirror.link router' other arguments = .error .notInHierarchy

namespace Hierarchy

/-- A mount that is free of the marks that end a path is transparent: for reading addresses, and in
all that a router does next to a twin without it. -/
theorem mount_is_transparent {config : Config} (mounted : config.mount ≠ "")
    (noQuery : '?' ∉ config.mount.toList) (noFragment : '#' ∉ config.mount.toList) :
    config.Transparent ∧
      ∀ {edits edits' : List Edit} {router router' : RouterId} {twin : RouteId → RouteId},
        (build edits).config? router = some config →
        (build edits').config? router' = some config.withoutMount →
        Twins (build edits) (build edits') router router' twin →
          ActsAs (build edits) (build edits') router router' twin config.mount := by
  have reads := Address.parse?_mount mounted noQuery noFragment
  have same : ∀ text, FollowsMount text →
      Address.parse? config (config.mount ++ text) = Address.parse? config.withoutMount text :=
    fun text follows => (reads text).trans (if_pos follows)
  refine ⟨⟨fun text => ?_, same, fun text => Address.parse?_of_not_prefix⟩, ?_⟩
  · rw [reads]
    split_ifs with follows
    · simp [Address.parse?_withoutMount, follows]
    · simp [follows]
  · intro edits edits' router router' twin given given' twins
    have forest := forest_build edits
    have mirrored := forest_build edits'
    exact
      { select := fun context text follows =>
          twins.selectPath_mirrors forest mirrored given given' context (same text follows)
        dispatch := fun context text follows =>
          twins.dispatch_mirrors forest mirrored given given' context (same text follows)
        link := fun id owned arguments =>
          twins.link_twin forest mirrored given given' owned arguments
        foreign := fun id other left right arguments =>
          ⟨link_of_not_owned left arguments, link_of_not_owned right arguments⟩ }

/-- The shop does below its mount what it does without one. -/
theorem shop_mount_is_transparent :
    (shopConfig.mount ≠ "" ∧ '?' ∉ shopConfig.mount.toList ∧ '#' ∉ shopConfig.mount.toList) ∧
      shopConfig.Transparent ∧ (build shopEdits).config? ⟨0⟩ = some shopConfig ∧
      (build (shopEdits.map Edit.withoutMount)).config? ⟨0⟩ = some shopConfig.withoutMount ∧
      Twins (build shopEdits) (build (shopEdits.map Edit.withoutMount)) ⟨0⟩ ⟨0⟩ (fun id => id) ∧
      ActsAs (build shopEdits) (build (shopEdits.map Edit.withoutMount)) ⟨0⟩ ⟨0⟩ (fun id => id)
        "/shop" := by
  have marks : shopConfig.mount ≠ "" ∧ '?' ∉ shopConfig.mount.toList ∧
      '#' ∉ shopConfig.mount.toList := by decide
  have given : (build shopEdits).config? ⟨0⟩ = some shopConfig := by
    rw [build_shopEdits]
    rfl
  have given' : (build (shopEdits.map Edit.withoutMount)).config? ⟨0⟩ =
      some shopConfig.withoutMount := by
    rw [build_withoutMount, config?_withoutMounts, given]
    rfl
  have twins := twins_withoutMount shopEdits ⟨0⟩
  obtain ⟨transparent, acts⟩ := mount_is_transparent marks.1 marks.2.1 marks.2.2
  exact ⟨marks, transparent, given, given', twins, acts given given' twins⟩

end Hierarchy

end RouteTree
