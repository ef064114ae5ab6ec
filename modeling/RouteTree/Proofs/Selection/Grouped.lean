import RouteTree.Proofs.Hierarchy.Grouping
import RouteTree.Proofs.Link.Stability
import RouteTree.Proofs.Selection.Ancestry
import RouteTree.Proofs.Selection.Calls
import RouteTree.Proofs.Selection.Comparing

/-! # Grouping is transparent

A new route without a pattern stands between a block of siblings and what they were appended to. It
is only tried with segments left over, takes none of them, and answers what its children answer with
its own selection in front. So every traversal calls the same callbacks in the same order and ends
alike, and a chain that comes through the block has one selection more. The step is made at the
target of the block, for its list as a whole; above it the change is handed up.
-/

namespace RouteTree

/-! ## A selection more -/

namespace Selection

/-- The selection of a route that only groups others. -/
def ofGroup (group : RouteId) (context : Value) : Selection :=
  { route := group
    kind := .inner
    request := ⟨context, .dict []⟩
    values := []
    groups := []
    pattern := none
    handler := none }

/-- Put a selection in front of the first one that selects a route of a block. -/
def insertBefore (block : List RouteId) (new : Selection) : List Selection → List Selection
  | [] => []
  | selection :: rest =>
    if selection.route ∈ block then new :: selection :: rest
    else selection :: insertBefore block new rest

theorem insertBefore_eq_self {block : List RouteId} {selections : List Selection}
    (outside : ∀ selection ∈ selections, selection.route ∉ block) (new : Selection) :
    insertBefore block new selections = selections := by
  induction selections with
  | nil => rfl
  | cons selection rest ih =>
    rw [List.forall_mem_cons] at outside
    rw [insertBefore, if_neg outside.1, ih outside.2]

end Selection

namespace Outcome

variable {block : List RouteId} {new : Selection}

/-- A chain with a selection more where it comes into a block. -/
def through (block : List RouteId) (new : Selection) : Outcome → Outcome
  | .noMatch => .noMatch
  | .redirect target => .redirect target
  | .chain first rest =>
    if first.route ∈ block then .chain new (first :: rest)
    else .chain first (Selection.insertBefore block new rest)

/-- A chain with a selection more where it comes into a block below its first route. -/
def throughBelow (block : List RouteId) (new : Selection) : Outcome → Outcome
  | .noMatch => .noMatch
  | .redirect target => .redirect target
  | .chain first rest => .chain first (Selection.insertBefore block new rest)

theorem through_eq_noMatch_iff (outcome : Outcome) :
    outcome.through block new = .noMatch ↔ outcome = .noMatch := by
  cases outcome with
  | noMatch => exact .rfl
  | redirect target => exact .rfl
  | chain first rest =>
    rw [through]
    split <;> simp

theorem throughBelow_eq_noMatch_iff (outcome : Outcome) :
    outcome.throughBelow block new = .noMatch ↔ outcome = .noMatch := by
  cases outcome <;> simp [throughBelow]

/-- What comes through a block below a route comes through it below the start of its chain. -/
theorem complete_through (route : Route) (selection : MatchKind → Selection) (outcome : Outcome) :
    Tree.complete route selection (outcome.through block new) =
      (Tree.complete route selection outcome).throughBelow block new := by
  cases outcome with
  | noMatch =>
    rw [through, Tree.complete]
    split <;> rfl
  | redirect target => rfl
  | chain first rest =>
    rw [through, Tree.complete, throughBelow, Selection.insertBefore]
    split <;> rfl

end Outcome

namespace Run

/-- Changes that agree on the result of a run change it alike. -/
theorem map_congr {α β : Type} {change change' : α → β} {run : Run α}
    (same : ∀ value, run.result = .ok value → change value = change' value) :
    change <$> run = change' <$> run := by
  rw [map_eq, map_eq]
  cases result : run.result with
  | error failure => rfl
  | ok value => rw [Except.map, Except.map, same value result]

end Run

namespace Route

variable {route : Route} {id : RouteId} {isLeaf : Bool} {arrival : Arrival}
  {segments : List String} {below below' : List String → Run Outcome} {block : List RouteId}
  {new : Selection}

/-- A step hands up the change that is made below it. -/
theorem answer_through
    (onward : ∀ rest, rest ≠ [] → below' rest = Outcome.through block new <$> below rest) :
    route.answer id isLeaf arrival segments below' =
      Outcome.throughBelow block new <$> route.answer id isLeaf arrival segments below := by
  rw [answer, answer]
  split
  · rw [map_pure, Outcome.throughBelow]
  · next values rest taken =>
    rw [map_bind]
    refine bind_congr fun verdict => ?_
    cases verdict with
    | refused => rw [map_pure, Outcome.throughBelow]
    | redirect target => rw [map_pure, Outcome.throughBelow]
    | admitted params =>
      dsimp only
      split
      · rw [map_pure, Outcome.throughBelow, Selection.insertBefore]
      · next more =>
        rw [onward rest (by simpa using more), bind_map_left, map_bind]
        refine bind_congr fun outcome => ?_
        rw [map_pure, Outcome.complete_through]

/-- A plain route with children hands on all segments and puts its selection in front. -/
theorem answer_plain (id : RouteId) (arrival : Arrival) (more : segments ≠ []) :
    plain.answer id false arrival segments below =
      Tree.complete plain (plain.selection id arrival [] (.dict [])) <$> below segments := by
  have taken : plain.take? false arrival.trailingSlash segments = some ([], segments) := by
    simp [take?, captures?, leftover, plain, more]
  have judged : plain.judge id arrival [] = pure (.admitted (.dict [])) := rfl
  rw [answer, taken]
  simp only [judged, pure_bind, List.isEmpty_iff, more, if_false, bind_pure_comp]

end Route

namespace Hierarchy.Grouped

variable {before after : Hierarchy} {target other : Handle} {group id : RouteId}
  {left block right : List RouteId} {arrival : Arrival} {segments : List String}
  {first : Selection} {rest : List Selection}
  (grouped : Grouped before after target group left block right)
  (forest : before.Forest)
include grouped forest

/-! ## The block and the routes beside it -/

theorem notMem_block_of_placement {other : Handle} (apart : other ≠ target)
    (placed : before.placement id = .ofTarget other) : id ∉ block := fun member =>
  apart (Placement.ofTarget_inj.mp
    (placed.symm.trans (grouped.placement_of_mem_block forest member)))

/-- No chain comes into the block twice. -/
theorem notMem_block_of_walk (start : id ∈ block)
    (walk : Walk before arrival id segments first rest) :
    ∀ selection ∈ rest, selection.route ∉ block := by
  intro selection member inside
  have siblings : before.parent? id = before.parent? selection.route := by
    rw [parent?, parent?, grouped.placement_of_mem_block forest start,
      grouped.placement_of_mem_block forest inside]
  obtain ⟨-, chain⟩ := forest.routes_of_walk walk
  have below := List.pairwise_cons.mp
    (List.isChain_iff_pairwise.mp (chain.imp fun _ _ => Relation.TransGen.single))
  have strictly := below.1 selection.route (List.mem_map_of_mem member)
  have same := forest.eq_of_same_parent siblings strictly.to_reflTransGen .refl
  exact forest.not_above_self id (same ▸ strictly)

omit grouped in
/-- Beside the block, a chain comes into it below its first route or not at all. -/
theorem throughBelow_eq_through (outside : id ∉ block) (new : Selection) :
    Outcome.throughBelow block new <$> before.select id arrival segments =
      Outcome.through block new <$> before.select id arrival segments := by
  refine Run.map_congr fun outcome result => ?_
  cases outcome with
  | noMatch => rfl
  | redirect target => rfl
  | chain first rest =>
    have starts := (forest.walk_of_select result).route_eq
    rw [Outcome.through, if_neg (starts ▸ outside), Outcome.throughBelow]

/-- In front of a chain from the block stands the selection of the new route. -/
theorem complete_throughBelow :
    (Tree.complete .plain (Route.plain.selection group arrival [] (.dict [])) ∘
        Outcome.throughBelow block (.ofGroup group arrival.context)) <$>
        before.selectAmong arrival segments block =
      Outcome.through block (.ofGroup group arrival.context) <$>
        before.selectAmong arrival segments block := by
  refine Run.map_congr fun outcome result => ?_
  cases outcome with
  | noMatch => rfl
  | redirect target => rfl
  | chain first rest =>
    obtain ⟨start, member, selected, _⟩ := exists_chain_of_selectAmong result
    have walk := forest.walk_of_select selected
    have outside := grouped.notMem_block_of_walk forest member walk
    rw [Function.comp_apply, Outcome.throughBelow, Outcome.through,
      if_pos (walk.route_eq ▸ member), Selection.insertBefore_eq_self outside]
    rfl

variable (forest' : after.Forest) (present : block ≠ [])
include forest' present

/-- The new route answers what its block answered, with its own selection in front. -/
theorem select_group (more : segments ≠ [])
    (each : ∀ id ∈ block, after.select id arrival segments =
      Outcome.throughBelow block (.ofGroup group arrival.context) <$>
        before.select id arrival segments) :
    after.select group arrival segments =
      Outcome.through block (.ofGroup group arrival.context) <$>
        before.selectAmong arrival segments block := by
  have children : after.children group = block := grouped.members_group
  have leaf : block.isEmpty = false := by simpa using present
  rw [forest'.select_of_route? grouped.route?_group, children, leaf,
    Route.answer_plain group arrival more,
    selectAmong_map Outcome.throughBelow_eq_noMatch_iff each, ← comp_map,
    grouped.complete_throughBelow forest]

/-! ## One list -/

/-- A list answers alike up to the selection more, if what stands in it does. The list with the
block has to be asked for some segments. -/
theorem selectAmong_members (old : other ≠ .route group) (more : other = target → segments ≠ [])
    (each : ∀ id ∈ before.members other, after.select id arrival segments =
      Outcome.throughBelow block (.ofGroup group arrival.context) <$>
        before.select id arrival segments) :
    after.selectAmong arrival segments (after.members other) =
      Outcome.through block (.ofGroup group arrival.context) <$>
        before.selectAmong arrival segments (before.members other) := by
  have keeps := @Outcome.through_eq_noMatch_iff block (.ofGroup group arrival.context)
  have beside : ∀ id ∈ before.members other, id ∉ block → after.select id arrival segments =
      Outcome.through block (.ofGroup group arrival.context) <$>
        before.select id arrival segments := by
    intro id listed outside
    rw [each id listed, throughBelow_eq_through forest outside]
  by_cases same : other = target
  · subst same
    rw [grouped.members_before] at each beside
    have outside : ∀ id ∈ left ++ right, id ∉ block := fun id listed inside =>
      notMem_beside (grouped.members_before ▸ forest.members_nodup other) inside listed
    have onLeft := selectAmong_map keeps fun id (member : id ∈ left) =>
      beside id (by simp [member]) (outside id (List.mem_append_left right member))
    have onRight := selectAmong_map keeps fun id (member : id ∈ right) =>
      beside id (by simp [member]) (outside id (List.mem_append_right left member))
    have within := grouped.select_group forest forest' present (more rfl) fun id member =>
      each id (by simp [member])
    rw [grouped.members_before, grouped.members_target, selectAmong_append_otherwise,
      selectAmong_cons_otherwise, List.append_assoc, selectAmong_append_otherwise,
      selectAmong_append_otherwise, onLeft, within, onRight, Run.otherwise_map keeps,
      Run.otherwise_map keeps]
  · rw [grouped.members_other other same old]
    exact selectAmong_map keeps fun id listed => beside id listed
      (grouped.notMem_block_of_placement forest same ((forest.mem_members_iff other id).mp listed))

/-! ## From a route down, and for a path -/

/-- Every old route answers alike up to the selection more. -/
theorem select_eq (old : id ≠ group) :
    after.select id arrival segments =
      Outcome.throughBelow block (.ofGroup group arrival.context) <$>
        before.select id arrival segments := by
  induction id using forest.below_wellFounded.induction generalizing segments with
  | _ id ih =>
    have same := grouped.route?_eq id old
    cases found : before.route? id with
    | none =>
      rw [forest.select_of_route?_eq_none found,
        forest'.select_of_route?_eq_none (same.trans found), map_pure, Outcome.throughBelow]
    | some route =>
      have leaf : (after.children id).isEmpty = (before.children id).isEmpty := by
        change (after.members (.route id)).isEmpty = (before.members (.route id)).isEmpty
        by_cases here : Handle.route id = target
        · rw [here, grouped.members_before, grouped.members_target, List.append_assoc]
          cases left <;> simp [present]
        · rw [grouped.members_other _ here fun equal => old (Handle.route.inj equal)]
      rw [forest.select_of_route? found, forest'.select_of_route? (same.trans found), leaf]
      refine Route.answer_through fun rest more => ?_
      refine grouped.selectAmong_members forest forest' present
        (fun equal => old (Handle.route.inj equal)) (fun _ => more) fun child listed => ?_
      exact ih child (forest.above_of_mem_children listed)
        (grouped.ne_group_of_listed forest listed)

/-- Every router matches a path alike up to the selection more. If the block stood among its root
routes, the path needs a segment. -/
theorem selectPath_eq {router : RouterId} {path : String} (context : Value)
    (more : target = .router router → ∀ config address, before.config? router = some config →
      Address.parse? config path = some address → address.segments ≠ []) :
    after.selectPath router context path =
      Outcome.through block (.ofGroup group context) <$>
        before.selectPath router context path := by
  refine selectPath_map Outcome.through_eq_noMatch_iff context (grouped.config?_eq router)
    fun address parsed => ?_
  change after.selectAmong _ _ (after.members (.router router)) =
    _ <$> before.selectAmong _ _ (before.members (.router router))
  refine grouped.selectAmong_members forest forest' present nofun (fun same => ?_) fun id listed =>
    grouped.select_eq forest forest' present (grouped.ne_group_of_listed forest listed)
  subst same
  have known := holds_of_block grouped.members_before present
  refine more rfl before.routers[router.index].config address ?_ ?_
  · rw [config?, router?, Array.getElem?_eq_getElem known]
    rfl
  · rwa [router?, Array.getElem?_eq_getElem known] at parsed

/-! ## Links -/

omit present in
/-- The lineage of an old route has the same patterns as before, since the new route has none. -/
theorem patterns_eq (old : id ≠ group) : after.patterns id = before.patterns id := by
  rw [patterns_eq_filterMap_route?, patterns_eq_filterMap_route?,
    ← (grouped.lineage_and_owner forest forest' old).1, List.filterMap_filter]
  refine List.filterMap_congr fun above _ => ?_
  by_cases new : above = group
  · rw [new, grouped.route?_group]
    simp [Route.plain]
  · simp [new, grouped.route?_eq above new]

omit present in
theorem link_eq (old : id ≠ group) (router : RouterId) (arguments : Entries) :
    after.link router id arguments = before.link router id arguments := by
  simp only [link, linkParts, mount_eq_config?, grouped.config?_eq,
    (grouped.lineage_and_owner forest forest' old).2, grouped.patterns_eq forest forest' old]

end Hierarchy.Grouped

namespace Hierarchy

variable {target : Handle} {left block right : List RouteId}

/-! ## Before and after -/

/-- What is asked of a hierarchy in which a block was grouped. Only a selection of the new route in
the chains through the block tells it from the hierarchy before: a run is the same up to that change
in its calls, in what it logs and in how it ends. -/
structure IsTransparent (before after : Hierarchy) (target : Handle) (group : RouteId)
    (block : List RouteId) : Prop where
  /-- From every old route down. -/
  select : ∀ id arrival segments, id ≠ group →
    after.select id arrival segments =
      Outcome.throughBelow block (.ofGroup group arrival.context) <$>
        before.select id arrival segments
  /-- For every path, but for one without segments at the router whose root routes were grouped. -/
  selectPath : ∀ router context path,
    (target = .router router → ∀ config address, before.config? router = some config →
      Address.parse? config path = some address → address.segments ≠ []) →
    after.selectPath router context path =
      Outcome.through block (.ofGroup group context) <$> before.selectPath router context path
  /-- The new route tries its children as the block was tried where it stood. Above all root routes
  of a router it does what the router did. -/
  select_group : ∀ arrival segments, segments ≠ [] →
    after.select group arrival segments =
      Outcome.through block (.ofGroup group arrival.context) <$>
        before.selectAmong arrival segments block
  /-- Every router makes the same link to every old route, or refuses it alike. -/
  link : ∀ id router arguments, id ≠ group →
    after.link router id arguments = before.link router id arguments

/-- A block of routes that follow each other in a list can always be put below a new plain route in
its place, and however this is done, it is transparent. -/
theorem grouping_is_transparent {edits : List Edit}
    (listed : (build edits).members target = left ++ block ++ right) (present : block ≠ []) :
    (∃ edits' group, Grouped (build edits) (build edits') target group left block right) ∧
      ∀ edits' group, Grouped (build edits) (build edits') target group left block right →
        IsTransparent (build edits) (build edits') target group block := by
  refine ⟨exists_grouped listed present, fun edits' group grouped => ?_⟩
  have forest := forest_build edits
  have forest' := forest_build edits'
  have select {id arrival segments} (old : id ≠ group) :=
    @Grouped.select_eq _ _ _ _ id _ _ _ arrival segments grouped forest forest' present old
  refine ⟨fun _ _ _ => select,
    fun _ context _ => grouped.selectPath_eq forest forest' present context,
    fun arrival segments more => ?_,
    fun _ router arguments old => grouped.link_eq forest forest' old router arguments⟩
  refine grouped.select_group forest forest' present more fun id member => select ?_
  have inside : id ∈ (build edits).members target := by simp [listed, member]
  exact grouped.ne_group_of_listed forest inside

/-- A route that nobody may enter and a frame stand side by side. -/
def frameEdits : List Edit :=
  [.router "" true,
    .route ⟨none, none, none, none, .null, true⟩,
    .route ⟨none, some fun _ => .ok (.bool false), none, none, .text "hidden", true⟩,
    .route ⟨none, none, none, none, .text "frame", true⟩,
    .append (.route ⟨0⟩) [⟨1⟩, ⟨2⟩],
    .append (.router ⟨0⟩) [⟨0⟩]]

def frameSelection : Selection :=
  { Selection.ofGroup ⟨2⟩ .null with kind := .error }

/-- With both of them grouped, the frame still answers after the refusal, below the new route. -/
theorem grouping_is_transparent_frame :
    ((build frameEdits).members (.route ⟨0⟩) = [] ++ [⟨1⟩, ⟨2⟩] ++ [] ∧
        [(⟨1⟩ : RouteId), ⟨2⟩] ≠ []) ∧
      ((build frameEdits).select ⟨0⟩ plainArrival ["a"]).result =
        .ok (.chain (.ofGroup ⟨0⟩ .null) [frameSelection]) ∧
      ∃ edits' group,
        Grouped (build frameEdits) (build edits') (.route ⟨0⟩) group [] [⟨1⟩, ⟨2⟩] [] ∧
        IsTransparent (build frameEdits) (build edits') (.route ⟨0⟩) group [⟨1⟩, ⟨2⟩] ∧
        ((build edits').select ⟨0⟩ plainArrival ["a"]).result =
          .ok (.chain (.ofGroup ⟨0⟩ .null) [.ofGroup group .null, frameSelection]) := by
  have listed : (build frameEdits).members (.route ⟨0⟩) = [] ++ [⟨1⟩, ⟨2⟩] ++ [] := rfl
  have present : [(⟨1⟩ : RouteId), ⟨2⟩] ≠ [] := List.cons_ne_nil _ _
  have answered : ((build frameEdits).select ⟨0⟩ plainArrival ["a"]).result =
      .ok (.chain (.ofGroup ⟨0⟩ .null) [frameSelection]) := rfl
  obtain ⟨⟨edits', group, grouped⟩, transparent⟩ := grouping_is_transparent listed present
  have same := transparent edits' group grouped
  refine ⟨⟨listed, present⟩, answered, edits', group, grouped, same, ?_⟩
  have old : (⟨0⟩ : RouteId) ≠ group := by
    rintro rfl
    exact Option.some_ne_none _ grouped.fresh
  rw [same.select _ _ _ old, Run.map_eq, answered]
  rfl

end Hierarchy

end RouteTree
