import RouteTree.Proofs.Hierarchy.Appending
import RouteTree.Proofs.Selection.Ancestry
import RouteTree.Proofs.Selection.Comparing
import RouteTree.Proofs.Selection.Stopping

/-! # Appending is a conservative extension

New routes stand at the end of the list that they are appended to. What is found before that end is
reached is found as before: a request that a route decides by itself or through what is below it is
answered alike, with the same calls, after routes were appended to it. Three things carry the
argument. A traversal that does not come past the route sees nothing new; a traversal that does come
past it comes there through one child at every level; and the new routes are tried only after all
old ones have found nothing.
-/

namespace RouteTree

namespace Hierarchy

variable {hierarchy before after : Hierarchy} {arrival : Arrival} {segments : List String}
  {id self : RouteId} {ids batch : List RouteId} {target : Handle} {run : Run Outcome}

/-- A route decides how a traversal ends: it is selected, and not for its outlet, or the traversal
is stopped by a callback of the route or of one below it. -/
inductive Decides (hierarchy : Hierarchy) (self : RouteId) (arrival : Arrival)
    (run : Run Outcome) : Prop
  | selected {first : Selection} {others : List Selection} {selection : Selection}
      (found : run.result = .ok (.chain first others)) (member : selection ∈ first :: others)
      (same : selection.route = self)
      (kind : selection.kind = .index ∨ selection.kind = .inner)
  | stopped {call : Call} {route : Route} (member : call ∈ run.calls)
      (below : Relation.ReflTransGen hierarchy.Above self call.route)
      (present : hierarchy.route? call.route = some route)
      (stops : route.Stops arrival call run.result)

/-- Only the calls and the result of a run tell what decides it. -/
theorem Decides.congr {run' : Run Outcome} (decides : hierarchy.Decides self arrival run)
    (calls : run.calls = run'.calls) (result : run.result = run'.result) :
    hierarchy.Decides self arrival run' := by
  cases decides with
  | selected found member same kind => exact .selected (result ▸ found) member same kind
  | stopped member below present stops =>
    exact .stopped (calls ▸ member) below present (result ▸ stops)

theorem Decides.ne_noMatch (decides : hierarchy.Decides self arrival run) :
    run.result ≠ .ok .noMatch := by
  cases decides with
  | selected found => simp [found]
  | stopped member below present stops => exact stops.ne_noMatch

/-! ## Traversals that come past the route -/

namespace Forest

variable (forest : hierarchy.Forest)
include forest

/-- A traversal that a route decides comes past that route: one of the routes where it starts has a
route below it in common with the route that decides. -/
theorem exists_start_of_decides
    (decides : hierarchy.Decides self arrival (hierarchy.selectAmong arrival segments ids)) :
    ∃ start ∈ ids, ∃ last, Relation.ReflTransGen hierarchy.Above self last ∧
      Relation.ReflTransGen hierarchy.Above start last := by
  cases decides with
  | selected found member same =>
    obtain ⟨start, listed, chain, _⟩ := exists_chain_of_selectAmong found
    have below := forest.reflTransGen_of_walk (forest.walk_of_select chain) _ member
    exact ⟨start, listed, self, .refl, same ▸ below⟩
  | stopped member below =>
    obtain ⟨start, listed, inside⟩ := exists_mem_of_mem_calls_selectAmong member
    obtain ⟨_, _, reaches, _⟩ := forest.reaches_of_mem_calls inside
    exact ⟨start, listed, _, below, forest.reflTransGen_of_reaches reaches⟩

/-- A route that decides among several ones decides among those after one that does not match. -/
theorem decides_of_noMatch
    (passed : (hierarchy.select id arrival segments).result = .ok .noMatch)
    (decides : hierarchy.Decides self arrival
      (hierarchy.selectAmong arrival segments (id :: ids))) :
    hierarchy.Decides self arrival (hierarchy.selectAmong arrival segments ids) := by
  rw [selectAmong_cons_of_noMatch passed] at decides
  cases decides with
  | selected found member same kind => exact .selected found member same kind
  | stopped member below present stops =>
    refine .stopped ((List.mem_append.mp member).resolve_left fun inside => ?_) below present stops
    exact stops.ne_noMatch ((forest.result_of_stops present stops inside).symm.trans passed)

/-- What a route decides from one above it is decided by what that one hands on. -/
theorem decides_below {route : Route} {values : List String} {params : Params}
    (present : hierarchy.route? id = some route)
    (admits : route.Admits arrival segments values params) (more : route.leftover segments ≠ [])
    (decides : hierarchy.Decides self arrival (hierarchy.select id arrival segments)) :
    (hierarchy.selectAmong arrival (route.leftover segments)
        (hierarchy.children id)).result ≠ .ok .noMatch ∧
      (id ≠ self → hierarchy.Decides self arrival
        (hierarchy.selectAmong arrival (route.leftover segments) (hierarchy.children id))) := by
  have course := route.answer_cases id (hierarchy.children id).isEmpty arrival segments fun rest =>
    hierarchy.selectAmong arrival rest (hierarchy.children id)
  rw [← forest.select_of_route? present] at course
  have handedOn := course.eq_of_admits decides.ne_noMatch admits more
  rw [handedOn] at decides
  cases decides with
  | @selected first others selection found member same kind =>
    cases below : (hierarchy.selectAmong arrival (route.leftover segments)
        (hierarchy.children id)).result with
    | error failure =>
      rw [below] at found
      cases found
    | ok outcome =>
      rw [below] at found
      rcases Tree.complete_eq_chain (Except.ok.inj found) with
        ⟨next, rest, rfl, rfl, rfl⟩ | ⟨rfl, rfl⟩
      · refine ⟨nofun, fun different => .selected below ?_ same kind⟩
        rcases List.mem_cons.mp member with rfl | onward
        · exact (different same).elim
        · exact onward
      · obtain rfl := List.mem_singleton.mp member
        rcases kind with index | inner <;> contradiction
  | @stopped call last member below found stops =>
    have onward := (List.mem_append.mp member).resolve_left
      (notMem_judge_of_admits present admits found stops)
    have result := result_selectAmong_of_stops stops
      (fun child _ => forest.result_of_stops found stops) onward
    rw [← result] at stops
    exact ⟨stops.ne_noMatch, fun _ => .stopped onward below found stops⟩

end Forest

/-! ## Before and after -/

namespace Extended

variable (extended : Extended before after target batch) (forest : before.Forest)
  (forest' : after.Forest)
include extended forest forest'

/-- A traversal that does not come past the target is the same before and after. -/
theorem select_eq_of_apart
    (apart : ∀ self, target = .route self → ¬ Relation.ReflTransGen before.Above id self) :
    after.select id arrival segments = before.select id arrival segments := by
  induction id using forest.below_wellFounded.induction generalizing segments with
  | _ id ih =>
    have same := extended.route?_eq id
    cases present : before.route? id with
    | none =>
      rw [forest.select_of_route?_eq_none present,
        forest'.select_of_route?_eq_none (same.trans present)]
    | some route =>
      have other : Handle.route id ≠ target := fun reached => apart id reached.symm .refl
      have children : after.children id = before.children id := extended.members_other _ other
      rw [forest.select_of_route? present, forest'.select_of_route? (same.trans present), children]
      congr 1
      funext rest
      apply selectAmong_congr
      intro child listed
      have above : before.Above id child := forest.above_of_mem_children listed
      exact ih child above fun self reached below => apart self reached (.head above below)

end Extended

namespace Extended

variable (extended : Extended before after (.route self) batch) (forest : before.Forest)
  (forest' : after.Forest)
include extended forest forest'

/-- Among siblings, what the target decides is decided at one of them, and those before it do not
come past the target. -/
theorem selectAmong_eq_of_decides (distinct : ids.Nodup)
    (siblings : ∀ first ∈ ids, ∀ second ∈ ids, before.parent? first = before.parent? second)
    (each : ∀ id ∈ ids, before.Decides self arrival (before.select id arrival segments) →
      after.select id arrival segments = before.select id arrival segments)
    (decides : before.Decides self arrival (before.selectAmong arrival segments ids)) :
    after.selectAmong arrival segments ids = before.selectAmong arrival segments ids := by
  induction ids with
  | nil => exact (decides.ne_noMatch rfl).elim
  | cons id ids ih =>
    by_cases passed : (before.select id arrival segments).result = .ok .noMatch
    · have onward := forest.decides_of_noMatch passed decides
      obtain ⟨start, listed, last, fromSelf, fromStart⟩ := forest.exists_start_of_decides onward
      have apart : ¬ Relation.ReflTransGen before.Above id self := by
        intro above
        have same := forest.eq_of_same_parent
          (siblings id List.mem_cons_self start (List.mem_cons_of_mem id listed))
          (above.trans fromSelf) fromStart
        exact (List.nodup_cons.mp distinct).1 (same ▸ listed)
      have head : after.select id arrival segments = before.select id arrival segments := by
        apply extended.select_eq_of_apart forest forest'
        rintro _ ⟨⟩
        exact apart
      have rest := ih distinct.of_cons
        (fun first inFirst second inSecond => siblings first (List.mem_cons_of_mem id inFirst)
          second (List.mem_cons_of_mem id inSecond))
        (fun other member => each other (List.mem_cons_of_mem id member)) onward
      rw [selectAmong_cons, selectAmong_cons, head, rest]
    · rw [selectAmong_cons_of_found passed] at decides ⊢
      have head := each id List.mem_cons_self decides
      rw [selectAmong_cons_of_found (by rw [head]; exact passed), head]

/-- Below the target, the new routes are not tried when an old one answers. -/
theorem selectAmong_target
    (found : (before.selectAmong arrival segments (before.children self)).result ≠ .ok .noMatch) :
    after.selectAmong arrival segments (after.children self) =
      before.selectAmong arrival segments (before.children self) := by
  have old : after.selectAmong arrival segments (before.children self) =
      before.selectAmong arrival segments (before.children self) := by
    apply selectAmong_congr
    intro child listed
    apply extended.select_eq_of_apart forest forest'
    rintro _ ⟨⟩ below
    exact forest.not_above_self self (.head' (forest.above_of_mem_children listed) below)
  have children : after.children self = before.children self ++ batch := extended.members_target
  rw [children, selectAmong_append batch (by rw [old]; exact found), old]

/-- What the target decides from a route on is the same before and after. -/
theorem select_eq_of_decides
    (decides : before.Decides self arrival (before.select id arrival segments)) :
    after.select id arrival segments = before.select id arrival segments := by
  induction id using forest.below_wellFounded.induction generalizing segments with
  | _ id ih =>
    have same := extended.route?_eq id
    cases present : before.route? id with
    | none =>
      rw [forest.select_of_route?_eq_none present] at decides
      exact (decides.ne_noMatch rfl).elim
    | some route =>
      have answered := decides.ne_noMatch
      rw [forest.select_of_route? present] at answered
      rw [forest.select_of_route? present, forest'.select_of_route? (same.trans present)]
      by_cases here : id = self
      · subst here
        have children : after.children id = before.children id ++ batch := extended.members_target
        have leaf : (after.children id).isEmpty = true → (before.children id).isEmpty = true := by
          simp +contextual [children]
        apply Route.answer_congr leaf answered
        intro values params admits more
        apply extended.selectAmong_target forest forest'
        exact (forest.decides_below present admits more decides).1
      · have children : after.children id = before.children id :=
          extended.members_other (.route id) fun reached => here (Handle.route.inj reached)
        rw [children]
        apply Route.answer_congr (fun leaf => leaf) answered
        intro values params admits more
        have above : ∀ child ∈ before.children id, before.Above id child :=
          fun _ => forest.above_of_mem_children
        apply extended.selectAmong_eq_of_decides forest forest'
        · exact forest.members_nodup (.route id)
        · intro first inFirst second inSecond
          exact (above first inFirst).trans (above second inSecond).symm
        · exact fun child listed => ih child (above child listed)
        · exact (forest.decides_below present admits more decides).2 here

end Extended

/-! ## Paths -/

namespace Extended

/-- What the target decides from the root routes of a router on is the same before and after. -/
theorem selectPath_eq_of_decides (extended : Extended before after (.route self) batch)
    (forest : before.Forest) (forest' : after.Forest) {router : RouterId} {path : String}
    {address : Address} (context : Value)
    (parsed : Address.parse? ((before.router? router).elim .unmounted Router.config) path =
      some address)
    (decides : before.Decides self (.ofAddress context address)
      (before.selectPath router context path)) :
    after.selectPath router context path = before.selectPath router context path := by
  obtain ⟨calls, result⟩ := selectPath_of_address context parsed
  apply selectPath_congr context (extended.config?_eq router)
  intro address' parsed'
  obtain rfl := Option.some.inj (parsed'.symm.trans parsed)
  have roots : after.roots router = before.roots router :=
    extended.members_other (.router router) nofun
  rw [roots]
  apply extended.selectAmong_eq_of_decides forest forest'
  · exact forest.members_nodup (.router router)
  · intro first inFirst second inSecond
    rw [forest.parent?_of_mem_roots inFirst, forest.parent?_of_mem_roots inSecond]
  · exact fun root _ => extended.select_eq_of_decides forest forest'
  · exact decides.congr calls result

/-- The new root routes of a router are not tried when an old one answers. -/
theorem selectPath_eq_of_answered {router : RouterId} {path : String}
    (extended : Extended before after (.router router) batch) (forest : before.Forest)
    (forest' : after.Forest) (context : Value)
    (answered : (before.selectPath router context path).result ≠ .ok .noMatch) :
    after.selectPath router context path = before.selectPath router context path := by
  apply selectPath_congr context (extended.config?_eq router)
  intro address parsed
  have old : after.selectAmong (.ofAddress context address) address.segments
        (before.roots router) =
      before.selectAmong (.ofAddress context address) address.segments (before.roots router) := by
    apply selectAmong_congr
    intro root _
    exact extended.select_eq_of_apart forest forest' nofun
  have roots : after.roots router = before.roots router ++ batch := extended.members_target
  rw [(selectPath_of_address context parsed).2] at answered
  rw [roots, selectAmong_append batch (by rw [old]; exact answered), old]

end Extended

/-- After routes are appended to a route, every request that it decides is answered as before and
with the same calls, whether it goes to a route or to a router. After routes are appended to a
router, every path that was answered is answered as before and with the same calls. -/
theorem appending_is_conservative {edits : List Edit} {batch : List RouteId} :
    (∀ {self}, (build edits).Accepts (.route self) batch →
      (∀ id arrival segments,
        (build edits).Decides self arrival ((build edits).select id arrival segments) →
          (build (edits ++ [.append (.route self) batch])).select id arrival segments =
            (build edits).select id arrival segments) ∧
      ∀ router context path address,
        Address.parse? (((build edits).router? router).elim .unmounted Router.config) path =
            some address →
          (build edits).Decides self (.ofAddress context address)
              ((build edits).selectPath router context path) →
            (build (edits ++ [.append (.route self) batch])).selectPath router context path =
              (build edits).selectPath router context path) ∧
    ∀ {router}, (build edits).Accepts (.router router) batch → ∀ context path,
      ((build edits).selectPath router context path).result ≠ .ok .noMatch →
        (build (edits ++ [.append (.router router) batch])).selectPath router context path =
          (build edits).selectPath router context path := by
  have forest := forest_build edits
  have grown : ∀ target, (build edits).Accepts target batch →
      Extended (build edits) (build (edits ++ [.append target batch])) target batch := by
    intro target accepted
    rw [build_append_singleton]
    exact accepted.extended
  constructor
  · intro self accepted
    have extended := grown _ accepted
    have forest' := forest_build (edits ++ [.append (.route self) batch])
    constructor
    · exact fun id arrival segments => extended.select_eq_of_decides forest forest'
    · exact fun router context path address parsed =>
        extended.selectPath_eq_of_decides forest forest' context parsed
  · intro router accepted context path answered
    have forest' := forest_build (edits ++ [.append (.router router) batch])
    exact (grown _ accepted).selectPath_eq_of_answered forest forest' context answered

/-- A route whose guard asks for a login, below a group, and a route with an outlet that is placed
nowhere yet. -/
def portalEdits : List Edit :=
  [.router "" true,
    .route ⟨none, none, none, none, .null, true⟩,
    .route ⟨none, some fun _ => .ok (.text "/login"), none, none, .text "frame", true⟩,
    .route ⟨none, none, none, none, .text "lost", true⟩,
    .append (.route ⟨0⟩) [⟨1⟩],
    .append (.router ⟨0⟩) [⟨0⟩]]

/-- The group itself is selected as before, and for a path below it the redirect of the guard comes
before the route with the outlet, which would answer any path. -/
theorem appending_is_conservative_portal :
    ((build portalEdits).Accepts (.route ⟨0⟩) [⟨2⟩] ∧
      (build portalEdits).Decides ⟨0⟩ plainArrival
        ((build portalEdits).select ⟨0⟩ plainArrival []) ∧
      (build (portalEdits ++ [.append (.route ⟨0⟩) [⟨2⟩]])).select ⟨0⟩ plainArrival [] =
        (build portalEdits).select ⟨0⟩ plainArrival [] ∧
      Address.parse? ⟨"", true⟩ "/a" = some ⟨["a"], false, .empty⟩ ∧
      (build portalEdits).Decides ⟨0⟩ (.ofAddress .null ⟨["a"], false, .empty⟩)
        ((build portalEdits).selectPath ⟨0⟩ .null "/a") ∧
      (build (portalEdits ++ [.append (.route ⟨0⟩) [⟨2⟩]])).selectPath ⟨0⟩ .null "/a" =
        (build portalEdits).selectPath ⟨0⟩ .null "/a") ∧
    (build portalEdits).Accepts (.router ⟨0⟩) [⟨2⟩] ∧
      ((build portalEdits).selectPath ⟨0⟩ .null "/a").result = .ok (.redirect "/login") ∧
      (build (portalEdits ++ [.append (.router ⟨0⟩) [⟨2⟩]])).selectPath ⟨0⟩ .null "/a" =
        (build portalEdits).selectPath ⟨0⟩ .null "/a" := by
  have below : (build portalEdits).Accepts (.route ⟨0⟩) [⟨2⟩] := ⟨by decide, by decide, rfl⟩
  have beside : (build portalEdits).Accepts (.router ⟨0⟩) [⟨2⟩] := ⟨by decide, by decide, rfl⟩
  have index : (build portalEdits).Decides ⟨0⟩ plainArrival
      ((build portalEdits).select ⟨0⟩ plainArrival []) :=
    .selected rfl List.mem_cons_self rfl (.inl rfl)
  have parsed : Address.parse? ⟨"", true⟩ "/a" = some ⟨["a"], false, .empty⟩ := rfl
  have redirected : ((build portalEdits).selectPath ⟨0⟩ .null "/a").result =
      .ok (.redirect "/login") := rfl
  have asked : .guard ⟨1⟩ ⟨.null, .dict []⟩ ∈
      ((build portalEdits).selectPath ⟨0⟩ .null "/a").calls := List.mem_singleton_self _
  have above : (build portalEdits).Above ⟨0⟩ ⟨1⟩ := rfl
  have stopped : (build portalEdits).Decides ⟨0⟩ (.ofAddress .null ⟨["a"], false, .empty⟩)
      ((build portalEdits).selectPath ⟨0⟩ .null "/a") := by
    refine .stopped asked (.single above) rfl ?_
    rw [redirected]
    exact .redirect rfl
  obtain ⟨byRoute, byPath⟩ := appending_is_conservative.1 below
  exact ⟨⟨below, index, byRoute _ _ _ index, parsed, stopped, byPath _ _ _ _ parsed stopped⟩,
    beside, redirected, appending_is_conservative.2 beside _ _ (by rw [redirected]; nofun)⟩

end Hierarchy

end RouteTree
