import RouteTree.Dispatch

/-! # Every way in which a traversal can end

`Tree.endings` lists, branch after branch and without looking at the others, each chain, redirect
and failure that a tree has to offer. The traversal stops at the first of them: committing early
loses nothing that comes before, and the outlet stands after all that the children offer.
-/

namespace RouteTree

/-- One way in which a branch of a traversal ends. -/
inductive Ending where
  | chain (first : Selection) (rest : List Selection)
  | redirect (target : String)
  | failure (cause : Failure)

namespace Ending

/-- The ending as the result of a whole traversal. -/
def result : Ending → Except Failure Outcome
  | .chain first rest => .ok (.chain first rest)
  | .redirect target => .ok (.redirect target)
  | .failure cause => .error cause

/-- Put the selection of a route in front of a chain below it. -/
def below (selection : Selection) : Ending → Ending
  | .chain first rest => .chain selection (first :: rest)
  | .redirect target => .redirect target
  | .failure cause => .failure cause

/-- The result of the first ending, and no match without any. -/
def firstResult : List Ending → Except Failure Outcome
  | [] => .ok .noMatch
  | ending :: _ => ending.result

end Ending

namespace Route

/-- What the extractor makes of a match: parameters, nothing usable, or a failure. -/
def extraction (route : Route) (arrival : Arrival) (values : List String) :
    Except Failure (Option Params) :=
  match route.extractor with
  | none => .ok (some (route.defaultParams values (route.searchGroups arrival.search)))
  | some extractor => ((extractor values arrival.search).mapError .callback).map Value.params?

/-- What the guard makes of a request. -/
def ruling (route : Route) (request : Request) : Except Failure GuardOutcome :=
  match route.guard with
  | none => .ok .proceed
  | some guard => ((guard request).mapError .callback).bind Value.decision

theorem result_extract (route : Route) (id : RouteId) (arrival : Arrival) (values : List String) :
    (route.extract id arrival values).result = route.extraction arrival values := by
  rw [extract, extraction]
  cases route.extractor with
  | none => rfl
  | some extractor =>
    simp only [Run.result_bind, Run.reply]
    cases extractor values arrival.search <;> rfl

theorem result_consult (route : Route) (id : RouteId) (request : Request) :
    (route.consult id request).result = route.ruling request := by
  rw [consult, ruling]
  cases route.guard with
  | none => rfl
  | some guard =>
    simp only [Run.result_bind, Run.reply]
    cases guard request <;> rfl

section Extraction

variable {route : Route} {arrival : Arrival} {values : List String} {extractor : Extractor}

theorem extraction_of_replied {value : Value} (present : route.extractor = some extractor)
    (replied : extractor values arrival.search = .ok value) :
    route.extraction arrival values = .ok value.params? := by
  rw [extraction, present]
  dsimp only
  rw [replied]
  rfl

theorem extraction_of_raised {error : CallbackError} (present : route.extractor = some extractor)
    (raised : extractor values arrival.search = .error error) :
    route.extraction arrival values = .error (.callback error) := by
  rw [extraction, present]
  dsimp only
  rw [raised]
  rfl

/-- Usable parameters are what the extractor replies, and the captured ones where there is none. -/
theorem extraction_eq_some_iff {params : Params} :
    route.extraction arrival values = .ok (some params) ↔
      (route.extractor = none ∧
        params = route.defaultParams values (route.searchGroups arrival.search)) ∨
        ∃ extractor, route.extractor = some extractor ∧
          extractor values arrival.search = .ok params.toValue := by
  cases present : route.extractor with
  | none => simp [extraction, present, eq_comm]
  | some extractor =>
    cases replied : extractor values arrival.search with
    | error error => simp [extraction_of_raised present replied, replied]
    | ok value => simp [extraction_of_replied present replied, replied, Value.params?_eq_some_iff]

end Extraction

section Ruling

variable {route : Route} {request : Request} {guard : Guard}

theorem ruling_of_replied {value : Value} (present : route.guard = some guard)
    (replied : guard request = .ok value) : route.ruling request = value.decision := by
  rw [ruling, present]
  dsimp only
  rw [replied]
  rfl

theorem ruling_of_raised {error : CallbackError} (present : route.guard = some guard)
    (raised : guard request = .error error) :
    route.ruling request = .error (.callback error) := by
  rw [ruling, present]
  dsimp only
  rw [raised]
  rfl

/-- The ruling is what the guard's reply stands for, and to proceed where there is no guard. -/
theorem ruling_eq_ok_iff {decided : GuardOutcome} :
    route.ruling request = .ok decided ↔
      (route.guard = none ∧ decided = .proceed) ∨
        ∃ guard value, route.guard = some guard ∧ guard request = .ok value ∧
          value.StandsFor decided := by
  cases present : route.guard with
  | none => simp [ruling, present, eq_comm]
  | some guard =>
    cases replied : guard request with
    | error error => simp [ruling_of_raised present replied, replied]
    | ok value => simp [ruling_of_replied present replied, replied, Value.decision_eq_ok_iff]

/-- There is no ruling where the guard fails or its reply stands for no decision. -/
theorem ruling_eq_error_iff {failure : Failure} :
    route.ruling request = .error failure ↔
      ∃ guard, route.guard = some guard ∧
        ((∃ error, guard request = .error error ∧ failure = .callback error) ∨
          ∃ value, guard request = .ok value ∧ (∀ decided, ¬ value.StandsFor decided) ∧
            failure = .undecided value.kindName) := by
  cases present : route.guard with
  | none => simp [ruling, present]
  | some guard =>
    cases replied : guard request with
    | error error => simp [ruling_of_raised present replied, replied, eq_comm]
    | ok value => simp [ruling_of_replied present replied, replied, Value.decision_eq_error_iff]

end Ruling

/-- The verdict of a ruling on a request with the given parameters. -/
def verdict (params : Params) : GuardOutcome → Verdict
  | .proceed => .admitted params
  | .reject => .refused
  | .redirect target => .redirect target

theorem result_judge (route : Route) (id : RouteId) (arrival : Arrival) (values : List String) :
    (route.judge id arrival values).result = (route.extraction arrival values).bind fun
      | none => .ok .refused
      | some params => (route.ruling ⟨arrival.context, params⟩).map (verdict params) := by
  rw [judge, Run.result_bind, result_extract]
  congr 1
  funext extracted
  cases extracted with
  | none => rfl
  | some params =>
    simp only [Run.result_bind, result_consult]
    cases route.ruling ⟨arrival.context, params⟩ with
    | error failure => rfl
    | ok ruled => cases ruled <;> rfl

/-- The first step at a route fails on a mismatch, on a slash that the route does not allow, and on
segments that nothing below the route can consume. -/
theorem take?_eq (route : Route) (isLeaf trailingSlash : Bool) (segments : List String) :
    route.take? isLeaf trailingSlash segments = (route.captures? segments).bind fun values =>
      if route.leftover segments = [] ∧ route.endsWith trailingSlash = false then none
      else if route.leftover segments ≠ [] ∧ isLeaf = true ∧ route.outlet.isNull = true then none
      else some (values, route.leftover segments) := by
  rw [take?]
  cases route.captures? segments with
  | none => rfl
  | some values =>
    by_cases done : route.leftover segments = []
    · cases ends : route.endsWith trailingSlash <;> simp [done]
    · cases isLeaf <;> cases outlet : route.outlet.isNull <;> simp [done, hasOutlet, outlet]

end Route

namespace Tree

mutual

/-- Everything that a tree has to offer for some segments, in the order of registration. -/
def endings (arrival : Arrival) (segments : List String) : Tree → List Ending
  | .node id route children =>
    match route.captures? segments with
    | none => []
    | some values =>
      let rest := route.leftover segments
      if rest = [] ∧ route.endsWith arrival.trailingSlash = false then []
      else if rest ≠ [] ∧ children.isEmpty = true ∧ route.outlet.isNull = true then []
      else
        match route.extraction arrival values with
        | .error failure => [.failure failure]
        | .ok none => []
        | .ok (some params) =>
          match route.ruling ⟨arrival.context, params⟩ with
          | .error failure => [.failure failure]
          | .ok .reject => []
          | .ok (.redirect target) => [.redirect target]
          | .ok .proceed =>
            let selection := route.selection id arrival values params
            if rest = [] then [.chain (selection .index) []]
            else
              (endingsOfAll arrival rest children).map (.below (selection .inner)) ++
                if route.outlet.isNull then [] else [.chain (selection .error) []]

/-- Everything that several trees have to offer, one tree after the other. -/
def endingsOfAll (arrival : Arrival) (segments : List String) : List Tree → List Ending
  | [] => []
  | tree :: trees => endings arrival segments tree ++ endingsOfAll arrival segments trees

end

theorem endingsOfAll_eq_flatMap (arrival : Arrival) (segments : List String) (trees : List Tree) :
    endingsOfAll arrival segments trees = trees.flatMap (endings arrival segments) := by
  induction trees with
  | nil => rw [endingsOfAll, List.flatMap_nil]
  | cons tree trees ih => rw [endingsOfAll, List.flatMap_cons, ih]

/-- Completing the first ending below a route is the first ending of the completed ones. -/
theorem firstResult_complete (route : Route) (selection : MatchKind → Selection)
    (endings : List Ending) :
    Ending.firstResult (endings.map (.below (selection .inner)) ++
        if route.outlet.isNull then [] else [.chain (selection .error) []]) =
      (Ending.firstResult endings).map (complete route selection) := by
  cases endings with
  | nil =>
    cases null : route.outlet.isNull <;>
      simp [Ending.firstResult, Ending.result, complete, Route.hasOutlet, null, Except.map]
  | cons ending others => cases ending <;> rfl

mutual

theorem result_select (arrival : Arrival) (segments : List String) :
    ∀ tree, (select arrival segments tree).result =
      Ending.firstResult (endings arrival segments tree)
  | .node id route children => by
    have below := result_selectFirst arrival (route.leftover segments) children
    rw [select, endings, Route.take?_eq]
    cases route.captures? segments with
    | none => rfl
    | some values =>
      simp only [Option.bind_some]
      by_cases slash : route.leftover segments = [] ∧ route.endsWith arrival.trailingSlash = false
      · rw [if_pos slash, if_pos slash]
        rfl
      rw [if_neg slash, if_neg slash]
      by_cases dead : route.leftover segments ≠ [] ∧ children.isEmpty = true ∧
          route.outlet.isNull = true
      · rw [if_pos dead, if_pos dead]
        rfl
      rw [if_neg dead, if_neg dead]
      simp only [Run.result_bind, Route.result_judge]
      cases route.extraction arrival values with
      | error failure => rfl
      | ok extracted =>
        cases extracted with
        | none => rfl
        | some params =>
          simp only [Except.bind]
          cases route.ruling ⟨arrival.context, params⟩ with
          | error failure => rfl
          | ok ruled =>
            cases ruled with
            | reject => rfl
            | redirect target => rfl
            | proceed =>
              simp only [Except.map, Route.verdict, List.isEmpty_iff]
              by_cases done : route.leftover segments = []
              · rw [if_pos done, if_pos done]
                rfl
              · rw [if_neg done, if_neg done, Run.result_bind, below, firstResult_complete]
                rfl

theorem result_selectFirst (arrival : Arrival) (segments : List String) :
    ∀ trees, (selectFirst arrival segments trees).result =
      Ending.firstResult (endingsOfAll arrival segments trees)
  | [] => rfl
  | tree :: trees => by
    have here := result_select arrival segments tree
    have onward := result_selectFirst arrival segments trees
    rw [selectFirst, endingsOfAll, Run.result_bind, here]
    cases endings arrival segments tree with
    | nil => exact onward
    | cons ending others => cases ending <;> rfl

end

end Tree

/-- How a request for an address arrives. -/
def Arrival.ofAddress (context : Value) (address : Address) : Arrival :=
  ⟨context, .query address.query, address.trailingSlash⟩

namespace Hierarchy

/-- Everything that the tree below a route has to offer. -/
def endings (hierarchy : Hierarchy) (id : RouteId) (arrival : Arrival) (segments : List String) :
    List Ending :=
  (hierarchy.tree? id).toList.flatMap (Tree.endings arrival segments)

/-- Everything that a router's root routes have to offer for a path. -/
def pathEndings (hierarchy : Hierarchy) (router : RouterId) (context : Value) (path : String) :
    List Ending :=
  match Address.parse? ((hierarchy.router? router).elim .unmounted Router.config) path with
  | none => []
  | some address => (hierarchy.roots router).flatMap fun root =>
      hierarchy.endings root (.ofAddress context address) address.segments

theorem endingsOfAll_filterMap_tree? (hierarchy : Hierarchy) (arrival : Arrival)
    (segments : List String) (ids : List RouteId) :
    Tree.endingsOfAll arrival segments (ids.filterMap hierarchy.tree?) =
      ids.flatMap fun id => hierarchy.endings id arrival segments := by
  rw [Tree.endingsOfAll_eq_flatMap]
  induction ids with
  | nil => rfl
  | cons id ids ih =>
    rw [List.filterMap_cons, List.flatMap_cons, endings, ← ih]
    cases hierarchy.tree? id with
    | none => rfl
    | some tree => simp

theorem result_select (hierarchy : Hierarchy) (id : RouteId) (arrival : Arrival)
    (segments : List String) :
    (hierarchy.select id arrival segments).result =
      Ending.firstResult (hierarchy.endings id arrival segments) := by
  rw [select, endings]
  cases hierarchy.tree? id with
  | none => rfl
  | some tree => simpa using Tree.result_select arrival segments tree

theorem result_selectPath (hierarchy : Hierarchy) (router : RouterId) (context : Value)
    (path : String) :
    (hierarchy.selectPath router context path).result =
      Ending.firstResult (hierarchy.pathEndings router context path) := by
  rw [selectPath, pathEndings]
  cases Address.parse? ((hierarchy.router? router).elim .unmounted Router.config) path with
  | none => rfl
  | some address =>
    simp only [selectAddress, trees, Run.result_bind, Tree.result_selectFirst,
      endingsOfAll_filterMap_tree?, Arrival.ofAddress]
    generalize (hierarchy.roots router).flatMap _ = endings
    cases endings with
    | nil => rfl
    | cons ending others => cases ending <;> rfl

/-- A traversal gives the first of all endings: in a tree, below a route of a hierarchy, and for a
path over all root routes of a router. -/
theorem traversal_gives_first_ending :
    (∀ (tree : Tree) (arrival : Arrival) (segments : List String),
      (tree.select arrival segments).result = Ending.firstResult (tree.endings arrival segments)) ∧
    (∀ (hierarchy : Hierarchy) (id : RouteId) (arrival : Arrival) (segments : List String),
      (hierarchy.select id arrival segments).result =
        Ending.firstResult (hierarchy.endings id arrival segments)) ∧
    ∀ (hierarchy : Hierarchy) (router : RouterId) (context : Value) (path : String),
      (hierarchy.selectPath router context path).result =
        Ending.firstResult (hierarchy.pathEndings router context path) :=
  ⟨fun tree arrival segments => Tree.result_select arrival segments tree, result_select,
    result_selectPath⟩

end Hierarchy

end RouteTree
