import RouteTree.Proofs.Link.Reading
import RouteTree.Proofs.Selection.Trail

/-! # Links lead back

A link is made by climbing from a route to its root, and a selection by descending from the roots.
`selectPath_link` joins the two: whoever follows the link to a route arrives at this route, by way
of its lineage and with the values that the link was made from.
-/

namespace RouteTree.Hierarchy

variable {hierarchy : Hierarchy} {router : RouterId} {id : RouteId} {context : Value}
  {arguments : Entries}

/-- What makes the link to a route lead back to it. -/
structure Retraceable (hierarchy : Hierarchy) (router : RouterId) (id : RouteId) (context : Value)
    (arguments : Entries) : Prop where
  owned : hierarchy.owner? id = some router
  /-- The router decodes segments, and its mount holds neither of the marks that end a path. -/
  readable : ∀ config, hierarchy.config? router = some config →
    config.decodesSegments = true ∧ '?' ∉ config.mount.toList ∧ '#' ∉ config.mount.toList
  /-- The route has a pattern or is a root route. -/
  target : (∃ route, hierarchy.route? id = some route ∧ route.pattern.isSome = true) ∨
    id ∈ hierarchy.roots router
  /-- Every parameter in the paths of the lineage has a value with a text. -/
  filled : ∀ above ∈ hierarchy.lineage id, ∀ route, hierarchy.route? above = some route →
    ∀ pattern ∈ route.pattern, pattern.IsFilledBy arguments
  noExtractor : ∀ above ∈ hierarchy.lineage id, ∀ route, hierarchy.route? above = some route →
    route.extractor = none
  /-- Every guard of the lineage proceeds for the request that it is asked about. -/
  proceeds : ∀ above ∈ hierarchy.lineage id, ∀ route, hierarchy.route? above = some route →
    route.ruling ⟨context, route.filledParams arguments⟩ = .ok .proceed
  /-- No route that was registered before one of the lineage answers for the segments that both are
  offered. -/
  unanswered : ∀ config link address, hierarchy.config? router = some config →
    hierarchy.link router id arguments = .ok link → Address.parse? config link = some address →
      ∀ above member below, hierarchy.lineage id = above ++ member :: below →
        ∀ other ∈ hierarchy.earlier member, (hierarchy.select other (.ofAddress context address)
          (hierarchy.filledSegments arguments (member :: below))).result = .ok .noMatch

/-! ## The lineage is a trail -/

/-- A trail that ends at a route with a pattern has segments. -/
theorem filledSegments_ne_nil (constructed : hierarchy.Constructed) {ids : List RouteId}
    (member : id ∈ ids) {route : Route} (found : hierarchy.route? id = some route)
    (patterned : route.pattern.isSome = true) : hierarchy.filledSegments arguments ids ≠ [] := by
  obtain ⟨pattern, present⟩ := Option.isSome_iff_exists.mp patterned
  have some_segment := Pattern.filledSegments_ne_nil
    (constructed.wellFormed found pattern present) arguments
  intro empty
  have none := List.flatMap_eq_nil_iff.mp empty id member
  simp [found, Route.filledSegments, present, some_segment] at none

/-- The address ends as the pattern of the route does. -/
theorem endsWith_filledAddress (forest : hierarchy.Forest) (constructed : hierarchy.Constructed)
    {route : Route} (found : hierarchy.route? id = some route) :
    route.endsWith (hierarchy.filledAddress id arguments).trailingSlash = true := by
  cases present : route.pattern with
  | none => simp [Route.endsWith, present]
  | some pattern =>
    simp [Route.endsWith, present, trailingSlash_filledAddress constructed,
      forest.getLast?_patterns found present]

namespace Retraceable

variable (retraceable : hierarchy.Retraceable router id context arguments)
include retraceable

theorem patterns_filled : ∀ pattern ∈ hierarchy.patterns id, pattern.IsFilledBy arguments := by
  intro pattern member
  obtain ⟨above, listed, route, found, present⟩ := mem_patterns_iff.mp member
  exact retraceable.filled above listed route found pattern present

variable (forest : hierarchy.Forest) (constructed : hierarchy.Constructed)
include forest constructed

/-- The link is made, and the router reads it as the address that was filled in. -/
theorem link_eq :
    ∃ config link, hierarchy.config? router = some config ∧
      hierarchy.link router id arguments = .ok link ∧
        Address.parse? config link = some (hierarchy.filledAddress id arguments) := by
  obtain ⟨top, below, _, root⟩ := forest.lineage_eq_cons retraceable.owned
  cases present : hierarchy.router? router with
  | none => simp [roots, present] at root
  | some found =>
    have configured : hierarchy.config? router = some found.config := by simp [config?, present]
    obtain ⟨decodes, noQuery, noFragment⟩ := retraceable.readable found.config configured
    exact ⟨found.config, _, configured,
      link_of_filled constructed retraceable.patterns_filled retraceable.owned configured,
      Link.parse?_text (ne_empty_of_mem_filledLink constructed retraceable.patterns_filled) decodes
        noQuery noFragment⟩

/-- Every route of the lineage lets the request for the link pass. -/
theorem passes {member : RouteId} (listed : member ∈ hierarchy.lineage id) :
    ∃ node, hierarchy.node? member = some node ∧ node.route.Passes
      (.ofAddress context (hierarchy.filledAddress id arguments)) arguments := by
  have held := forest.lineage_holds retraceable.owned member listed
  obtain ⟨node, present⟩ := exists_node held
  have found := route?_of_node? present
  exact ⟨node, present,
    { wellFormed := constructed.wellFormed found
      noExtractor := retraceable.noExtractor member listed node.route found
      searched := fun pattern declared name named => getAll_filledAddress constructed
        (mem_patterns_iff.mpr ⟨member, listed, node.route, found, declared⟩) named
      proceeds := retraceable.proceeds member listed node.route found }⟩

/-- What stands before a route of the lineage has nothing to offer. -/
theorem silent {above below : List RouteId} {member : RouteId}
    (lineage : hierarchy.lineage id = above ++ member :: below) :
    ∀ other ∈ hierarchy.earlier member,
      hierarchy.endings other (.ofAddress context (hierarchy.filledAddress id arguments))
        (hierarchy.filledSegments arguments (member :: below)) = [] := by
  intro other before
  obtain ⟨config, link, configured, linked, parsed⟩ := retraceable.link_eq forest constructed
  have unanswered := retraceable.unanswered config link _ configured linked parsed above member
    below lineage other before
  rw [result_select] at unanswered
  exact Ending.firstResult_eq_noMatch_iff.mp unanswered

/-- A route below another in the lineage is no root, so the end of the lineage has a pattern. -/
theorem more_segments {above below : List RouteId} {member next : RouteId}
    (lineage : hierarchy.lineage id = above ++ member :: next :: below) :
    hierarchy.filledSegments arguments (next :: below) ≠ [] := by
  have ends : id ∈ next :: below := by
    have same : (member :: next :: below).getLast? = some id := by
      rw [← forest.lineage_getLast? id, lineage, List.getLast?_append_cons]
    rw [List.getLast?_cons_cons] at same
    exact List.mem_of_getLast? same
  rcases retraceable.target with ⟨route, found, patterned⟩ | root
  · exact filledSegments_ne_nil constructed ends found patterned
  · rw [forest.lineage_of_top (forest.parent?_of_mem_roots root)] at lineage
    have lengths := congrArg List.length lineage
    simp only [List.length_append, List.length_cons, List.length_nil] at lengths
    omega

/-- From every route of the lineage on, the rest of the lineage is a trail. -/
theorem exists_trail {above below : List RouteId} {member : RouteId}
    (lineage : hierarchy.lineage id = above ++ member :: below) :
    ∃ first others, Trail hierarchy (.ofAddress context (hierarchy.filledAddress id arguments))
      arguments member below first others := by
  have here {above below : List RouteId} {member : RouteId}
      (lineage : hierarchy.lineage id = above ++ member :: below) :
      member ∈ hierarchy.lineage id := by
    rw [lineage]
    exact List.mem_append_right above List.mem_cons_self
  induction below generalizing above member with
  | nil =>
    obtain ⟨node, present, passes⟩ := retraceable.passes forest constructed (here lineage)
    obtain rfl : member = id := by
      have last := forest.lineage_getLast? id
      rw [lineage, List.getLast?_concat] at last
      exact Option.some.inj last
    exact ⟨_, [], .last present passes
      (endsWith_filledAddress forest constructed (route?_of_node? present))⟩
  | cons next rest ih =>
    have onward : hierarchy.lineage id = (above ++ [member]) ++ next :: rest := by
      rw [lineage, List.append_assoc]
      rfl
    obtain ⟨first, others, trail⟩ := ih onward
    obtain ⟨node, present, passes⟩ := retraceable.passes forest constructed (here lineage)
    have linked : hierarchy.parent? next = some member := by
      have chain := forest.lineage_isChain id
      rw [lineage] at chain
      exact (List.isChain_cons_cons.mp chain.right_of_append).1
    obtain ⟨after, listed⟩ := forest.members_eq_append
      (show hierarchy.placement next = .ofTarget (.route member) from parent?_eq_some_iff.mp linked)
    have children_eq : node.children = hierarchy.earlier next ++ next :: after := by
      simpa [members, children, present] using listed
    exact ⟨_, first :: others, .step present passes children_eq
      (retraceable.silent forest constructed onward)
      (retraceable.more_segments forest constructed lineage) trail⟩

end Retraceable

/-! ## Following the link -/

/-- Selecting by the link to a route gives the lineage of the route: every route but the last hands
segments on, the last one ends the address, and each request holds the values that the link was made
from. -/
theorem selectPath_link {edits : List Edit}
    (retraceable : (build edits).Retraceable router id context arguments) :
    ∃ link first others, (build edits).link router id arguments = .ok link ∧
      ((build edits).selectPath router context link).result = .ok (.chain first others) ∧
        (first :: others).map Selection.route = (build edits).lineage id ∧
          (first :: others).map Selection.kind = List.replicate others.length .inner ++ [.index] ∧
            ∀ selection ∈ first :: others, ∃ route,
              (build edits).route? selection.route = some route ∧
                selection.request = ⟨context, route.filledParams arguments⟩ := by
  have forest := forest_build edits
  have constructed := constructed_build edits
  obtain ⟨config, link, configured, linked, parsed⟩ := retraceable.link_eq forest constructed
  obtain ⟨top, below, lineage, root⟩ := forest.lineage_eq_cons retraceable.owned
  have whole : (build edits).lineage id = [] ++ top :: below := lineage
  obtain ⟨first, others, trail⟩ := retraceable.exists_trail forest constructed whole
  obtain ⟨after, listed⟩ := forest.members_eq_append
    ((forest.mem_members_iff (.router router) top).mp root)
  have silent := retraceable.silent forest constructed whole
  have followed := head?_flatMap_endings silent (trail.head?_endings forest) after
  have segments : ((build edits).filledAddress id arguments).segments =
      (build edits).filledSegments arguments (top :: below) := by
    simp [filledAddress, filledLink, lineage]
  rw [← listed, ← segments, members] at followed
  refine ⟨link, first, others, linked, ?_, lineage ▸ trail.routes_eq, trail.kinds_eq,
    trail.request_eq⟩
  obtain ⟨found, present, rfl⟩ := Option.map_eq_some_iff.mp configured
  obtain ⟨endings, endings_eq⟩ := List.head?_eq_some_iff.mp followed
  rw [result_selectPath, pathEndings, present, Option.elim_some, parsed]
  simp only [endings_eq]
  rfl

/-! ### A page for each user, next to the page on which users are entered -/

def usersRoute : Route :=
  ⟨some ⟨[.literal "users"], [], [], true, false⟩, none, none, none, .null, false⟩

def newRoute : Route :=
  ⟨some ⟨[.literal "new"], [], [], true, false⟩, none, none, none, .null, true⟩

def userRoute : Route :=
  ⟨some ⟨[.parameter "id"], ["id"], ["tab"], true, true⟩, some fun _ => .ok (.bool true), none,
    none, .null, true⟩

def userEdits : List Edit :=
  [.router "/app/" true,
    .route ⟨some "/users", none, none, none, .null, false⟩,
    .route ⟨some "/new", none, none, none, .null, true⟩,
    .route ⟨some "/\x7bid\x7d/?\x7btab\x7d", some fun _ => .ok (.bool true), none, none, .null,
      true⟩,
    .append (.route ⟨0⟩) [⟨1⟩, ⟨2⟩],
    .append (.router ⟨0⟩) [⟨0⟩]]

def userHierarchy : Hierarchy :=
  { nodes := #[⟨usersRoute, .root ⟨0⟩, [⟨1⟩, ⟨2⟩]⟩, ⟨newRoute, .below ⟨0⟩, []⟩,
      ⟨userRoute, .below ⟨0⟩, []⟩]
    routers := #[⟨⟨"/app", true⟩, [⟨0⟩]⟩] }

def userArguments : Entries :=
  [("id", .text "a/b"), ("tab", .list [.text "x&y", .int 2])]

theorem build_userEdits : build userEdits = userHierarchy := by
  have users : Pattern.parse "/users" = .ok ⟨[.literal "users"], [], [], true, false⟩ :=
    Pattern.parse_eq_ok_iff.mpr (by decide)
  have new : Pattern.parse "/new" = .ok ⟨[.literal "new"], [], [], true, false⟩ :=
    Pattern.parse_eq_ok_iff.mpr (by decide)
  have user : Pattern.parse "/\x7bid\x7d/?\x7btab\x7d" =
      .ok ⟨[.parameter "id"], ["id"], ["tab"], true, true⟩ :=
    Pattern.parse_eq_ok_iff.mpr (by decide)
  simp only [build, editAll, userEdits, List.foldl_cons, List.foldl_nil, edit, Route.ofSpec,
    RouteSpec.pattern, users, new, user]
  rfl

theorem lineage_user : userHierarchy.lineage ⟨2⟩ = [⟨0⟩, ⟨2⟩] :=
  rfl

theorem eq_or_eq_of_mem_lineage_user {above : RouteId}
    (member : above ∈ userHierarchy.lineage ⟨2⟩) {route : Route}
    (found : userHierarchy.route? above = some route) : route = usersRoute ∨ route = userRoute := by
  obtain rfl | rfl : above = ⟨0⟩ ∨ above = ⟨2⟩ := by simpa [lineage_user] using member
  · exact .inl (Option.some.inj found).symm
  · exact .inr (Option.some.inj found).symm

theorem user_retraceable : userHierarchy.Retraceable ⟨0⟩ ⟨2⟩ .null userArguments where
  owned := rfl
  readable := by
    intro config configured
    obtain rfl : (⟨"/app", true⟩ : Config) = config := Option.some.inj configured
    decide
  target := .inl ⟨_, rfl, rfl⟩
  filled := by
    intro above member route found pattern present
    rcases eq_or_eq_of_mem_lineage_user member found with rfl | rfl
    · obtain rfl := Option.some.inj present
      simp [Pattern.IsFilledBy]
    · obtain rfl := Option.some.inj present
      simp only [Pattern.IsFilledBy, List.mem_singleton, forall_eq]
      decide
  noExtractor := by
    intro above member route found
    rcases eq_or_eq_of_mem_lineage_user member found with rfl | rfl <;> rfl
  proceeds := by
    intro above member route found
    rcases eq_or_eq_of_mem_lineage_user member found with rfl | rfl <;> rfl
  unanswered := by
    intro config link address _ _ _ above member below lineage other before
    rw [lineage_user] at lineage
    match above, lineage with
    | [], lineage =>
      obtain ⟨rfl, rfl⟩ := List.cons.inj lineage
      contradiction
    | [_], lineage =>
      obtain ⟨_, rfl, rfl⟩ : _ ∧ _ ∧ _ := by simpa using lineage
      have registered : userHierarchy.earlier ⟨2⟩ = [⟨1⟩] := rfl
      rw [registered, List.mem_singleton] at before
      subst before
      rfl
    | _ :: _ :: _, lineage => simp at lineage

theorem selectPath_link_user :
    (build userEdits).Retraceable ⟨0⟩ ⟨2⟩ .null userArguments ∧
      ∃ link first others, (build userEdits).link ⟨0⟩ ⟨2⟩ userArguments = .ok link ∧
        ((build userEdits).selectPath ⟨0⟩ .null link).result = .ok (.chain first others) ∧
          (first :: others).map Selection.route = (build userEdits).lineage ⟨2⟩ ∧
            (first :: others).map Selection.kind =
                List.replicate others.length .inner ++ [.index] ∧
              ∀ selection ∈ first :: others, ∃ route,
                (build userEdits).route? selection.route = some route ∧
                  selection.request = ⟨.null, route.filledParams userArguments⟩ :=
  have retraceable : (build userEdits).Retraceable ⟨0⟩ ⟨2⟩ .null userArguments :=
    build_userEdits ▸ user_retraceable
  ⟨retraceable, selectPath_link retraceable⟩

example : userHierarchy.link ⟨0⟩ ⟨2⟩ userArguments =
    .ok "/app/users/a%2Fb/?tab=x%26y&tab=2" := by
  rfl

end RouteTree.Hierarchy
