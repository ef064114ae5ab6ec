import RouteTree.Proofs.Pattern.Reading
import RouteTree.Proofs.Query.Undeclared
import RouteTree.Proofs.Selection.Comparing

/-! # What a traversal asks of the search values

Without extractors, the only search values that a traversal looks up are those of the names in the
patterns. Sources that agree on these names are therefore the same to it: the callbacks are called
with the same arguments, also on branches that are given up later, and the outcome is the same. For
a router this means that pairs of other names can be put into a query text or taken out of it.
-/

namespace RouteTree

/-- Two sources hold the same values under some names. -/
def Search.AgreeOn (asked : String → Prop) (left right : Search) : Prop :=
  ∀ name, asked name → left.getAll name = right.getAll name

theorem Search.AgreeOn.mono {asked asked' : String → Prop} {left right : Search}
    (agree : Search.AgreeOn asked left right) (fewer : ∀ name, asked' name → asked name) :
    Search.AgreeOn asked' left right :=
  fun name present => agree name (fewer name present)

namespace Route

variable {route : Route} {id : RouteId} {isLeaf : Bool} {arrival : Arrival} {search : Search}
  {segments : List String} {below below' : List String → Run Outcome}

/-- A route has a search parameter of a name. -/
def Declares (route : Route) (name : String) : Prop :=
  ∃ pattern, route.pattern = some pattern ∧ name ∈ pattern.searchNames

theorem searchGroups_of_agree (agree : Search.AgreeOn route.Declares arrival.search search) :
    route.searchGroups search = route.searchGroups arrival.search := by
  rw [searchGroups, searchGroups]
  cases present : route.pattern with
  | none => rfl
  | some pattern =>
    refine List.filterMap_congr fun name member => ?_
    rw [searchGroup?, searchGroup?, agree name ⟨pattern, present, member⟩]

/-- A route without an extractor judges a request alike for sources that agree on its names. -/
theorem judge_of_agree (plain : route.extractor = none)
    (agree : Search.AgreeOn route.Declares arrival.search search) (values : List String) :
    route.judge id { arrival with search } values = route.judge id arrival values := by
  rw [judge, judge, extract, extract, plain]
  simp only [searchGroups_of_agree agree]

theorem selection_of_agree (agree : Search.AgreeOn route.Declares arrival.search search)
    (values : List String) (params : Params) :
    route.selection id { arrival with search } values params =
      route.selection id arrival values params := by
  funext kind
  rw [selection, selection, searchGroups_of_agree agree]

/-- The step of a route without an extractor is the same if what is below it answers alike. -/
theorem answer_of_agree (plain : route.extractor = none)
    (agree : Search.AgreeOn route.Declares arrival.search search)
    (same : ∀ rest, below' rest = below rest) :
    route.answer id isLeaf { arrival with search } segments below' =
      route.answer id isLeaf arrival segments below := by
  simp only [answer, judge_of_agree plain agree, selection_of_agree agree, same]

end Route

namespace Hierarchy

variable {hierarchy : Hierarchy} {arrival : Arrival} {search : Search} {id : RouteId}
  {segments : List String} {among fewer : RouteId → Prop} {router : RouterId}

/-- Some route of a kind has a search parameter of a name. -/
def Declares (hierarchy : Hierarchy) (among : RouteId → Prop) (name : String) : Prop :=
  ∃ id route, among id ∧ hierarchy.route? id = some route ∧ route.Declares name

/-- No route of a kind has an extractor. -/
def NoExtractor (hierarchy : Hierarchy) (among : RouteId → Prop) : Prop :=
  ∀ id route, among id → hierarchy.route? id = some route → route.extractor = none

/-- A route and all that stands below it. -/
def Within (hierarchy : Hierarchy) (id : RouteId) : RouteId → Prop :=
  Relation.ReflTransGen (fun above below => below ∈ hierarchy.children above) id

/-- The routes that a router owns. -/
def OwnedBy (hierarchy : Hierarchy) (router : RouterId) (id : RouteId) : Prop :=
  hierarchy.owner? id = some router

theorem NoExtractor.mono (plain : hierarchy.NoExtractor among) (part : ∀ id, fewer id → among id) :
    hierarchy.NoExtractor fewer :=
  fun id route member => plain id route (part id member)

theorem Declares.mono {name : String} (declared : hierarchy.Declares fewer name)
    (part : ∀ id, fewer id → among id) : hierarchy.Declares among name :=
  have ⟨id, route, member, present, declares⟩ := declared
  ⟨id, route, part id member, present, declares⟩

/-- A traversal depends on no more of the source than the values of the names declared within. -/
theorem Forest.select_of_agree (forest : hierarchy.Forest)
    (plain : hierarchy.NoExtractor (hierarchy.Within id))
    (agree : Search.AgreeOn (hierarchy.Declares (hierarchy.Within id)) arrival.search search) :
    hierarchy.select id { arrival with search } segments =
      hierarchy.select id arrival segments := by
  induction id using forest.below_wellFounded.induction generalizing segments with
  | _ id ih =>
    cases present : hierarchy.route? id with
    | none =>
      rw [forest.select_of_route?_eq_none present, forest.select_of_route?_eq_none present]
    | some route =>
      rw [forest.select_of_route? present, forest.select_of_route? present]
      apply Route.answer_of_agree (plain id route .refl present)
      · exact agree.mono fun name declares => ⟨id, route, .refl, present, declares⟩
      · intro rest
        apply selectAmong_congr
        intro child listed
        have part below (within : hierarchy.Within child below) : hierarchy.Within id below :=
          .head listed within
        exact ih child (forest.above_of_mem_children listed) (plain.mono part)
          (agree.mono fun name declared => declared.mono part)

/-- Pairs whose names no route declares add nothing to what the routes ask for. -/
theorem agreeOn_of_edited {asked : String → Prop} {query query' : List Char}
    (unmarked : query.head? ≠ some '?') (unmarked' : query'.head? ≠ some '?')
    (edited : Text.Form.Edited (fun name => ¬ asked name) (Text.Form.pairs query)
      (Text.Form.pairs query')) :
    Search.AgreeOn asked (.query (.ofText (String.ofList query)))
      (.query (.ofText (String.ofList query'))) := by
  intro name present
  rw [Search.getAll, Search.getAll, Query.getAll_ofText unmarked, Query.getAll_ofText unmarked',
    edited.valuesOf_eq (not_not_intro present)]

/-- A router's traversal depends on no more of the source than the values of its names. -/
theorem Forest.selectAmong_roots_of_agree (forest : hierarchy.Forest) (arrival : Arrival)
    (segments : List String) (plain : hierarchy.NoExtractor (hierarchy.OwnedBy router))
    (agree : Search.AgreeOn (hierarchy.Declares (hierarchy.OwnedBy router)) arrival.search
      search) :
    hierarchy.selectAmong { arrival with search } segments (hierarchy.roots router) =
      hierarchy.selectAmong arrival segments (hierarchy.roots router) := by
  apply selectAmong_congr
  intro root listed
  have part below (within : hierarchy.Within root below) : hierarchy.OwnedBy router below :=
    forest.owner?_eq_some_iff.mpr ⟨root, listed, within⟩
  exact forest.select_of_agree (plain.mono part)
    (agree.mono fun name declared => declared.mono part)

/-- Paths with addresses that differ in their queries only are matched alike if these agree. -/
theorem Forest.selectPath_of_agree (forest : hierarchy.Forest) (context : Value)
    {address : Address} {query : Query} {text text' : String}
    (plain : hierarchy.NoExtractor (hierarchy.OwnedBy router))
    (parsed : Address.parse? ((hierarchy.router? router).elim .unmounted Router.config) text =
      some address)
    (parsed' : Address.parse? ((hierarchy.router? router).elim .unmounted Router.config) text' =
      some { address with query })
    (agree : Search.AgreeOn (hierarchy.Declares (hierarchy.OwnedBy router)) (.query address.query)
      (.query query)) :
    (hierarchy.selectPath router context text').calls =
        (hierarchy.selectPath router context text).calls ∧
      (hierarchy.selectPath router context text').result =
        (hierarchy.selectPath router context text).result := by
  obtain ⟨calls, result⟩ := selectPath_of_address context parsed
  obtain ⟨calls', result'⟩ := selectPath_of_address context parsed'
  have same := forest.selectAmong_roots_of_agree (.ofAddress context address) address.segments plain
    agree
  rw [calls, calls', result, result']
  exact ⟨congrArg Run.calls same, congrArg Run.result same⟩

/-- What is asked of a hierarchy whose traversals ignore the values of other names. -/
structure IgnoresUndeclared (hierarchy : Hierarchy) : Prop where
  /-- Below a route, sources that agree on the declared names are matched alike. -/
  select_eq : ∀ id arrival search segments,
    hierarchy.NoExtractor (hierarchy.Within id) →
    Search.AgreeOn (hierarchy.Declares (hierarchy.Within id)) arrival.search search →
    hierarchy.select id { arrival with search } segments = hierarchy.select id arrival segments
  /-- Pairs of other names may be added to a query text and removed from it. -/
  selectPath_eq : ∀ router context path query query' text text',
    hierarchy.NoExtractor (hierarchy.OwnedBy router) →
    Address.Written path query text → Address.Written path query' text' →
    query.head? ≠ some '?' → query'.head? ≠ some '?' →
    Text.Form.Edited (fun name => ¬ hierarchy.Declares (hierarchy.OwnedBy router) name)
      (Text.Form.pairs query) (Text.Form.pairs query') →
    (hierarchy.selectPath router context text').calls =
        (hierarchy.selectPath router context text).calls ∧
      (hierarchy.selectPath router context text').result =
        (hierarchy.selectPath router context text).result

/-- Query data that no route declares changes neither what is selected nor what is called. -/
theorem undeclared_query_is_ignored (edits : List Edit) : (build edits).IgnoresUndeclared := by
  have forest := forest_build edits
  refine ⟨fun id arrival search segments plain agree => forest.select_of_agree plain agree, ?_⟩
  intro router context path query query' text text' plain written written' unmarked unmarked' edited
  have agree := agreeOn_of_edited unmarked unmarked' edited
  have parsed := written.parse?_eq (((build edits).router? router).elim .unmounted Router.config)
  have parsed' := written'.parse?_eq (((build edits).router? router).elim .unmounted Router.config)
  cases inside : Address.below?
      (((build edits).router? router).elim .unmounted Router.config).mount.toList path with
  | none =>
    rw [inside] at parsed parsed'
    obtain ⟨calls, result⟩ := selectPath_of_outside context parsed
    obtain ⟨calls', result'⟩ := selectPath_of_outside context parsed'
    exact ⟨calls'.trans calls.symm, result'.trans result.symm⟩
  | some rest =>
    rw [inside] at parsed parsed'
    exact forest.selectPath_of_agree context plain parsed parsed' agree

/-! ### A report whose guard looks at the page -/

/-- Lets requests pass that name a page. -/
def pageGuard : Guard := fun request =>
  .ok (.bool (request.params.entries.any fun entry => entry.1 = "page"))

def reportPattern : Pattern :=
  ⟨[.literal "report"], [], ["page"], true, false⟩

def reportEdits : List Edit :=
  [.router "" true,
    .route ⟨some "/report?\x7bpage\x7d", some pageGuard, none, none, .null, true⟩,
    .append (.router ⟨0⟩) [⟨0⟩]]

def reportHierarchy : Hierarchy :=
  { nodes := #[⟨⟨some reportPattern, some pageGuard, none, none, .null, true⟩, .root ⟨0⟩, []⟩]
    routers := #[⟨⟨"", true⟩, [⟨0⟩]⟩] }

theorem build_reportEdits : build reportEdits = reportHierarchy := by
  have report : Pattern.parse "/report?\x7bpage\x7d" = .ok reportPattern :=
    Pattern.parse_eq_ok_iff.mpr (by decide)
  simp only [build, editAll, reportEdits, List.foldl_cons, List.foldl_nil, Hierarchy.edit,
    Route.ofSpec, RouteSpec.pattern, report]
  rfl

theorem route?_report {id : RouteId} {route : Route}
    (found : reportHierarchy.route? id = some route) :
    route = ⟨some reportPattern, some pageGuard, none, none, .null, true⟩ := by
  obtain ⟨_ | index⟩ := id
  · exact (Option.some.inj found).symm
  · contradiction

theorem noExtractor_report (among : RouteId → Prop) : (build reportEdits).NoExtractor among := by
  rw [build_reportEdits]
  intro id route _ found
  rw [route?_report found]

theorem eq_page_of_declares {name : String} (declared : (build reportEdits).Declares among name) :
    name = "page" := by
  rw [build_reportEdits] at declared
  obtain ⟨id, route, _, found, pattern, present, member⟩ := declared
  rw [route?_report found] at present
  obtain rfl := Option.some.inj present
  exact List.mem_singleton.mp member

/-- The guard sees the same page from a source that holds something under every name, and whether
other pairs stand around the page or not. -/
theorem undeclared_query_is_ignored_report :
    (build reportEdits).select ⟨0⟩
          ⟨.null, .lookup fun name => if name = "page" then ["2"] else ["noise"], false⟩
          ["report"] =
        (build reportEdits).select ⟨0⟩ ⟨.null, .query (.ofText "page=2"), false⟩ ["report"] ∧
      ((build reportEdits).selectPath ⟨0⟩ .null "/report?page=2").calls =
        [.guard ⟨0⟩ ⟨.null, .dict [("page", .text "2")]⟩] ∧
      ((build reportEdits).selectPath ⟨0⟩ .null "/report?debug=1&page=2&x#top").calls =
        ((build reportEdits).selectPath ⟨0⟩ .null "/report?page=2").calls ∧
      ((build reportEdits).selectPath ⟨0⟩ .null "/report?debug=1&page=2&x#top").result =
        ((build reportEdits).selectPath ⟨0⟩ .null "/report?page=2").result := by
  obtain ⟨bySource, byText⟩ := undeclared_query_is_ignored reportEdits
  have guarded : ((build reportEdits).selectPath ⟨0⟩ .null "/report?page=2").calls =
      [.guard ⟨0⟩ ⟨.null, .dict [("page", .text "2")]⟩] := by
    rw [build_reportEdits]
    rfl
  have short : Address.Written "/report".toList "page=2".toList "/report?page=2" :=
    @Address.Written.queried _ _ [] (by decide) (by decide) (by decide) (by simp)
  have long : Address.Written "/report".toList "debug=1&page=2&x".toList
      "/report?debug=1&page=2&x#top" :=
    @Address.Written.queried _ _ "#top".toList (by decide) (by decide) (by decide) (by simp)
  have free {name : String} (other : name ≠ "page") :
      ¬ (build reportEdits).Declares ((build reportEdits).OwnedBy ⟨0⟩) name :=
    fun declared => other (eq_page_of_declares declared)
  have edited : Text.Form.Edited
      (fun name => ¬ (build reportEdits).Declares ((build reportEdits).OwnedBy ⟨0⟩) name)
      (Text.Form.pairs "page=2".toList) (Text.Form.pairs "debug=1&page=2&x".toList) :=
    .add (free (by decide)) (.keep "page=2".toList (.add (free (by decide)) .nil))
  refine ⟨?_, guarded, ?_⟩
  · apply bySource ⟨0⟩ ⟨.null, .query (.ofText "page=2"), false⟩ _ _ (noExtractor_report _)
    intro name declared
    obtain rfl := eq_page_of_declares declared
    rfl
  · exact byText ⟨0⟩ .null _ _ _ _ _ (noExtractor_report _) short long (by decide) (by decide)
      edited

end Hierarchy

end RouteTree
