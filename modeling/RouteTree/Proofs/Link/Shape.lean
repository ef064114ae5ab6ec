import RouteTree.Proofs.Link.Decoding
import RouteTree.Proofs.Link.Stability

/-! # The shape of a link

Values are encoded before they are joined, so that no value adds a piece to the path of a link or an
item to its query. How many pieces there are, and whether a slash ends them, is decided by the
lineage of the route alone. Knowing both, one can cut a link into its parts again, and so two links
to a route are the same only if their segments and their fields are.
-/

namespace RouteTree

namespace Text

/-- Joined parts without the mark between them are known once it is known how many they are. -/
theorem intercalate_inj {mark : Char} {first second : List (List Char)}
    (left : ∀ part ∈ first, mark ∉ part) (right : ∀ part ∈ second, mark ∉ part)
    (count : first.length = second.length)
    (joined : [mark].intercalate first = [mark].intercalate second) : first = second := by
  by_cases none : first = []
  · subst none
    exact (List.length_eq_zero_iff.mp count.symm).symm
  · have present : second ≠ [] := by
      rintro rfl
      exact none (List.length_eq_zero_iff.mp count)
    rw [← List.splitOn_intercalate mark left none, joined,
      List.splitOn_intercalate mark right present]

end Text

namespace Link

/-! ## The parts of a link as they are written -/

/-- A written path: every piece stands behind a slash and holds only characters that segments are
encoded with, and one more slash ends the pieces if it is asked for and there are any. -/
def IsPath (count : Nat) (slash : Bool) (path : List Char) : Prop :=
  ∃ pieces : List (List Char), pieces.length = count ∧
    (∀ piece ∈ pieces, ∀ char ∈ piece, Text.Percent.isWritten char = true) ∧
    path = '/' :: ['/'].intercalate pieces ++ if 0 < count ∧ slash = true then ['/'] else []

/-- A written field: its name and its value around the only equals sign. -/
def IsItem (field : String × String) (item : List Char) : Prop :=
  ∃ name value, item = name ++ '=' :: value ∧
    (∀ char ∈ name ++ value, Text.Form.isWritten char = true) ∧
    Text.Form.decodeText name = field.1 ∧ Text.Form.decodeText value = field.2

/-- A written query: nothing, or a question mark and an item for every field. -/
inductive IsQuery : List (String × String) → List Char → Prop
  | none : IsQuery [] []
  | marked {fields : List (String × String)} {items : List (List Char)} {written : List Char}
      (present : fields ≠ []) (each : List.Forall₂ IsItem fields items)
      (joined : written = ['&'].intercalate items)
      (closed : '?' ∉ written ∧ '#' ∉ written ∧ '/' ∉ written) : IsQuery fields ('?' :: written)

theorem isPath_pathText (link : Link) :
    IsPath link.segments.length link.trailingSlash link.pathText := by
  refine ⟨link.writtenSegments, List.length_map _, ?_, ?_⟩
  · intro piece listed char member
    obtain ⟨text, _, rfl⟩ := List.mem_map.mp listed
    exact Text.Percent.isWritten_of_mem_encode member
  · have ending : (link.trailingSlash && !link.segments.isEmpty) = true ↔
        0 < link.segments.length ∧ link.trailingSlash = true := by
      cases link.segments <;> simp
    simp only [pathText, ending]
    rfl

theorem isItem_encodeField (field : String × String) :
    IsItem field (Text.Form.encodeField field) := by
  refine ⟨_, _, rfl, fun char member => ?_, Text.Form.decodeText_encodeText _,
    Text.Form.decodeText_encodeText _⟩
  exact (List.mem_append.mp member).elim Text.Form.isWritten_of_mem_encodeText
    Text.Form.isWritten_of_mem_encodeText

theorem isQuery_queryText (link : Link) : IsQuery link.query link.queryText := by
  rw [queryText]
  by_cases none : link.query = []
  · rw [none]
    exact .none
  · rw [if_neg (by simpa using none)]
    have closed {char : Char} (unwritten : Text.Form.isWritten char = false) (plain : char ≠ '&')
        (other : char ≠ '=') : char ∉ Text.Form.encode link.query :=
      Text.Form.notMem_encode unwritten plain other _
    refine .marked none ?_ rfl ⟨closed rfl (by decide) (by decide),
      closed rfl (by decide) (by decide), closed rfl (by decide) (by decide)⟩
    rw [List.forall₂_map_right_iff, List.forall₂_same]
    exact fun field _ => isItem_encodeField field

/-! ## Links with equally many segments -/

section

variable {first second : Link} (count : first.segments.length = second.segments.length)
  (slash : first.trailingSlash = second.trailingSlash)
include count slash

theorem segments_eq_of_pathText_eq (same : first.pathText = second.pathText) :
    first.segments = second.segments := by
  have none : first.segments.isEmpty = second.segments.isEmpty := by
    rw [Bool.eq_iff_iff, List.isEmpty_iff_length_eq_zero, List.isEmpty_iff_length_eq_zero, count]
  rw [pathText, pathText, slash, none] at same
  have joined := List.append_cancel_right (List.cons.inj same).2
  have written : first.writtenSegments = second.writtenSegments :=
    Text.intercalate_inj (first.notMem_writtenSegments rfl) (second.notMem_writtenSegments rfl)
      (by simpa [writtenSegments] using count) joined
  have encoded : Function.Injective fun text : String => Text.Percent.encode text.toList :=
    fun left right equal => by
      have decoded := congrArg Text.Percent.decode equal
      exact String.toList_inj.mp (by simpa using decoded)
  exact List.map_injective_iff.mpr encoded written

/-- Links that end alike and have equally many segments are the same exactly when their parts are
the same. -/
theorem text_eq_iff (mount : String) :
    first.text mount = second.text mount ↔
      first.segments = second.segments ∧ first.query = second.query := by
  constructor
  · intro same
    have below : first.pathText ++ first.queryText = second.pathText ++ second.queryText := by
      simpa [text] using congrArg String.toList same
    have noMark (link : Link) : '?' ∉ link.pathText := link.notMem_pathText rfl (by decide)
    obtain ⟨path, query⟩ := first.cut_queryText (noMark first)
    obtain ⟨path', query'⟩ := second.cut_queryText (noMark second)
    rw [below] at path query
    refine ⟨segments_eq_of_pathText_eq count slash (path.symm.trans path'), ?_⟩
    have encoded := congrArg Text.Form.decode (query.symm.trans query')
    simpa only [Text.Form.decode_encode] using encoded
  · rintro ⟨segments, query⟩
    have same : first = second := by
      cases first
      cases second
      simp_all
    rw [same]

end

end Link

namespace Hierarchy

variable {hierarchy : Hierarchy} {router : RouterId} {id : RouteId} {arguments : Entries}

/-! ## Links to one route -/

/-- How many segments the patterns of a lineage expect. -/
def segmentCount (hierarchy : Hierarchy) (id : RouteId) : Nat :=
  ((hierarchy.patterns id).flatMap Pattern.segments).length

/-- Whether the deepest pattern of a lineage ends with a slash. -/
def endsWithSlash (hierarchy : Hierarchy) (id : RouteId) : Bool :=
  (hierarchy.patterns id).getLast?.elim false Pattern.trailingSlash

/-- The fields that a link emits: those of every search name that the lineage declares, in the order
of first declaration and each name once. -/
def emittedFields (hierarchy : Hierarchy) (id : RouteId) (arguments : Entries) :
    List (String × String) :=
  ((hierarchy.patterns id).flatMap Pattern.searchNames).eraseDups.flatMap
    (Pattern.queryFields arguments)

theorem length_filledLink (hierarchy : Hierarchy) (id : RouteId) (arguments : Entries) :
    (hierarchy.filledLink id arguments).segments.length = hierarchy.segmentCount id := by
  rw [filledLink, ← flatMap_filledSegments, segmentCount, List.length_flatMap, List.length_flatMap]
  simp only [Pattern.filledSegments, List.length_map]

theorem query_filledLink (constructed : hierarchy.Constructed) (id : RouteId)
    (arguments : Entries) :
    (hierarchy.filledLink id arguments).query = hierarchy.emittedFields id arguments := by
  have all : ((hierarchy.patterns id).flatMap Pattern.searchNames).removeAll [] =
      (hierarchy.patterns id).flatMap Pattern.searchNames := List.filter_eq_self.mpr (by simp)
  have fields := @Link.chainFields_eq_flatMap arguments (hierarchy.patterns id)
    constructed.patterns_wellFormed []
  rwa [all] at fields

/-- A lineage that is given is rendered as the segments of its link. -/
theorem IsGiven.mapM_render (given : hierarchy.IsGiven id arguments)
    (constructed : hierarchy.Constructed) :
    ∃ rendered, (hierarchy.patterns id).mapM (fun pattern => pattern.render arguments) =
        .ok rendered ∧
      (hierarchy.filledLink id arguments).segments = rendered.flatMap Rendered.segments := by
  refine ⟨_, (Pattern.mapM_render_eq_ok_iff constructed.patterns_wellFormed).mpr ⟨given, rfl⟩, ?_⟩
  rw [List.flatMap_map]
  exact (hierarchy.flatMap_filledSegments id arguments).symm

/-- What is asked of a link to a route, whatever values it was made with. -/
structure KeepsShape (hierarchy : Hierarchy) (router : RouterId) (id : RouteId)
    (arguments : Entries) (text : String) : Prop where
  /-- Below the mount stand the path and the query that the route and the fields ask for. -/
  written : ∃ config path query, hierarchy.config? router = some config ∧
    text.toList = config.mount.toList ++ path ++ query ∧
    Link.IsPath (hierarchy.segmentCount id) (hierarchy.endsWithSlash id) path ∧
    Link.IsQuery (hierarchy.emittedFields id arguments) query
  /-- A link with other values is the same exactly when it has the same segments and fields. -/
  eq_iff : ∀ arguments' text', hierarchy.link router id arguments' = .ok text' →
    ∃ rendered rendered',
      (hierarchy.patterns id).mapM (fun pattern => pattern.render arguments) = .ok rendered ∧
      (hierarchy.patterns id).mapM (fun pattern => pattern.render arguments') = .ok rendered' ∧
      (text = text' ↔ rendered.flatMap Rendered.segments = rendered'.flatMap Rendered.segments ∧
        hierarchy.emittedFields id arguments = hierarchy.emittedFields id arguments')

/-- Every link has the pieces, the slash and the items that its route and its fields ask for, and
two links to a route are the same exactly when their segments and their fields are. -/
theorem link_keeps_shape {edits : List Edit} {router : RouterId} {id : RouteId}
    {arguments : Entries} {text : String}
    (linked : (build edits).link router id arguments = .ok text) :
    (build edits).KeepsShape router id arguments text := by
  have constructed := constructed_build edits
  have segments := (build edits).length_filledLink id
  have query := query_filledLink constructed id
  obtain ⟨config, configured⟩ := (forest_build edits).exists_config (owner?_of_link linked)
  obtain ⟨_, given, rfl⟩ := (link_eq_ok_iff constructed configured).mp linked
  constructor
  · refine ⟨config, _, _, configured, ?_, segments arguments ▸ Link.isPath_pathText _,
      query arguments ▸ Link.isQuery_queryText _⟩
    simp [Link.text]
  · intro arguments' text' linked'
    obtain ⟨_, given', rfl⟩ := (link_eq_ok_iff constructed configured).mp linked'
    obtain ⟨rendered, renders, same⟩ := given.mapM_render constructed
    obtain ⟨rendered', renders', same'⟩ := given'.mapM_render constructed
    refine ⟨rendered, rendered', renders, renders', ?_⟩
    rw [← same, ← same', ← query arguments, ← query arguments']
    exact Link.text_eq_iff ((segments arguments).trans (segments arguments').symm) rfl config.mount

/-- Slashes, question marks and ampersands in values stay inside their pieces and items. -/
theorem link_keeps_shape_item :
    (build shopEdits).link ⟨0⟩ ⟨1⟩ itemArguments =
        .ok "/shop/find/a%2Fb%3F/7/?q=x%26y&q=2&page=False" ∧
      (build shopEdits).KeepsShape ⟨0⟩ ⟨1⟩ itemArguments
        "/shop/find/a%2Fb%3F/7/?q=x%26y&q=2&page=False" := by
  have linked : (build shopEdits).link ⟨0⟩ ⟨1⟩ itemArguments =
      .ok "/shop/find/a%2Fb%3F/7/?q=x%26y&q=2&page=False" := by
    rw [build_shopEdits]
    rfl
  exact ⟨linked, link_keeps_shape linked⟩

example : shopHierarchy.segmentCount ⟨1⟩ = 3 ∧ shopHierarchy.endsWithSlash ⟨1⟩ = true ∧
    shopHierarchy.emittedFields ⟨1⟩ itemArguments =
      [("q", "x&y"), ("q", "2"), ("page", "False")] := by
  decide

end Hierarchy

end RouteTree
