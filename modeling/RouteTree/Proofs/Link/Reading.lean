import RouteTree.Address
import RouteTree.Link
import RouteTree.Proofs.Query.Sources
import Mathlib.Data.List.Basic

/-! # Links are read back

A link is cut into the parts that it was put together from: percent-encoding hides every slash,
question mark and fragment mark of a segment, and form-encoding those of the query. The mount has to
be free of the two marks that end a path. An empty segment leaves nothing between its slashes that
could be read, so `Link.found` is what a link is read as.
-/

namespace RouteTree

namespace Address

/-! ## Parts of a path -/

/-- The parts on both sides of a slash are found apart from each other. -/
theorem parts_append_slash_cons (before after : List Char) :
    parts (before ++ '/' :: after) = parts before ++ parts after := by
  rw [parts, List.splitOn_append_cons_self, List.filter_append]
  rfl

@[simp] theorem parts_cons_slash (path : List Char) : parts ('/' :: path) = parts path :=
  parts_append_slash_cons [] path

@[simp] theorem parts_append_slash (path : List Char) : parts (path ++ ['/']) = parts path := by
  rw [parts_append_slash_cons]
  exact List.append_nil _

/-- Of parts that hold no slash, those that are not empty are found again. -/
theorem parts_intercalate {written : List (List Char)} (whole : ∀ part ∈ written, '/' ∉ part) :
    parts (['/'].intercalate written) = written.filter fun part => !part.isEmpty := by
  by_cases none : written = []
  · simp [none, parts]
  · rw [parts, List.splitOn_intercalate _ whole none]

/-- A slash and joined parts that hold none end with a slash only where the last part is empty. -/
theorem getLast?_slash_intercalate {written : List (List Char)}
    (whole : ∀ part ∈ written, '/' ∉ part) :
    ('/' :: ['/'].intercalate written).getLast? = some '/' ↔
      ∀ part ∈ written.getLast?, part = [] := by
  induction written with
  | nil => simp
  | cons part rest ih =>
    obtain ⟨clean, later⟩ := List.forall_mem_cons.mp whole
    cases rest with
    | nil =>
      rw [List.intercalate_singleton]
      cases part with
      | nil => simp
      | cons char others =>
        have other : (char :: others).getLast? ≠ some '/' := fun last =>
          clean (List.mem_of_getLast? last)
        simpa [List.getLast?_cons_cons] using other
    | cons next others =>
      -- What stands before the last slash does not count.
      rw [List.intercalate_cons_cons, List.append_assoc, List.singleton_append, ← List.cons_append,
        List.getLast?_append_cons, ih later, List.getLast?_cons_cons]

/-! ## The part below the mount -/

/-- A path that goes on with a slash after the mount lies below it. -/
theorem below?_append (mount path : List Char) :
    below? mount (mount ++ '/' :: path) = some ('/' :: path) := by
  rw [below?]
  by_cases none : mount = []
  · simp [none]
  · have inside : (mount ++ ['/']).isPrefixOf (mount ++ '/' :: path) = true := by
      rw [List.isPrefixOf_iff_prefix, List.append_cons mount '/' path]
      exact List.prefix_append _ _
    simp [none, inside]

/-! ## What is read from any path -/

theorem segmentOf_ne_empty (config : Config) {part : List Char} (present : part ≠ []) :
    segmentOf config part ≠ "" := by
  have decoded : (if config.decodesSegments then Text.Percent.decode part else part) ≠ [] := by
    split
    · exact Text.Percent.decode_ne_nil present
    · exact present
  rwa [segmentOf, ne_eq, String.ofList_eq_empty_iff]

section

variable {config : Config} {path : String} {address : Address}
  (parsed : parse? config path = some address)
include parsed

/-- No segment of an address is empty. -/
theorem ne_empty_of_mem_segments : ∀ text ∈ address.segments, text ≠ "" := by
  obtain ⟨inside, _, rfl⟩ := Option.map_eq_some_iff.mp parsed
  intro text member
  obtain ⟨part, listed, rfl⟩ := List.mem_map.mp member
  exact segmentOf_ne_empty config (by simpa using (List.mem_filter.mp listed).2)

/-- An address without segments does not end with a slash. -/
theorem trailingSlash_of_segments_eq_nil (none : address.segments = []) :
    address.trailingSlash = false := by
  obtain ⟨inside, _, rfl⟩ := Option.map_eq_some_iff.mp parsed
  have no_parts : parts inside = [] := List.map_eq_nil_iff.mp none
  simp [ofParts, no_parts]

end

end Address

namespace Link

/-- The written forms of the segments. -/
def writtenSegments (link : Link) : List (List Char) :=
  link.segments.map fun text => Text.Percent.encode text.toList

theorem notMem_writtenSegments {char : Char} (unwritten : Text.Percent.isWritten char = false)
    (link : Link) : ∀ part ∈ link.writtenSegments, char ∉ part := by
  intro part listed member
  obtain ⟨text, _, rfl⟩ := List.mem_map.mp listed
  rw [Text.Percent.isWritten_of_mem_encode member] at unwritten
  contradiction

/-- A mark that no segment can hold does not stand in the path of a link. -/
theorem notMem_pathText {char : Char} (unwritten : Text.Percent.isWritten char = false)
    (other : char ≠ '/') (link : Link) : char ∉ link.pathText := by
  have joined : char ∉ ['/'].intercalate link.writtenSegments := by
    rw [Text.mem_intercalate_iff (by simpa using other)]
    rintro ⟨part, listed, member⟩
    exact link.notMem_writtenSegments unwritten part listed member
  have ending : char ∉ (if link.trailingSlash && !link.segments.isEmpty then ['/'] else []) := by
    split <;> simp [other]
  simp only [pathText, List.cons_append, List.mem_cons, List.mem_append, not_or]
  exact ⟨other, joined, ending⟩

theorem fragmentMark_notMem_queryText (link : Link) : '#' ∉ link.queryText := by
  have encoded : '#' ∉ Text.Form.encode link.query :=
    Text.Form.notMem_encode rfl (by decide) (by decide) _
  rw [queryText]
  split <;> simp [encoded]

/-- The question mark of a link is the one before its query. -/
theorem cut_queryText {path : List Char} (absent : '?' ∉ path) (link : Link) :
    Text.before '?' (path ++ link.queryText) = path ∧
      Text.after '?' (path ++ link.queryText) = Text.Form.encode link.query := by
  rw [queryText]
  split
  · next none =>
    rw [List.append_nil, List.isEmpty_iff.mp none]
    exact ⟨Text.before_eq_self absent, Text.after_eq_nil absent⟩
  · exact ⟨Text.before_append_mark absent _, Text.after_append_mark absent _⟩

/-! ## Empty segments are not found -/

/-- What can be found of a link: the segments that are not empty. Where the last segment is empty,
the slash before it ends the path. -/
def found (link : Link) : Link :=
  { segments := link.segments.filter (· ≠ "")
    query := link.query
    trailingSlash := link.trailingSlash || link.segments.getLast? == some "" }

/-- Of a link without empty segments, all is found. -/
theorem found_eq_self {link : Link} (present : ∀ text ∈ link.segments, text ≠ "") :
    link.found = link := by
  have kept : link.segments.filter (· ≠ "") = link.segments := by
    apply List.filter_eq_self.mpr
    simpa using present
  have last : (link.segments.getLast? == some "") = false := by
    apply beq_eq_false_iff_ne.mpr
    intro empty
    exact present "" (List.mem_of_getLast? empty) rfl
  rw [found, kept, last, Bool.or_false]

theorem filter_writtenSegments (link : Link) :
    (link.writtenSegments.filter fun part => !part.isEmpty) = link.found.writtenSegments := by
  rw [writtenSegments, writtenSegments, found, List.filter_map]
  refine congrArg (List.map _) (List.filter_congr fun text _ => ?_)
  rw [Function.comp_apply, Bool.eq_iff_iff]
  simp

theorem parts_pathText (link : Link) :
    Address.parts link.pathText = link.found.writtenSegments := by
  have parts := Address.parts_intercalate (link.notMem_writtenSegments rfl)
  rw [filter_writtenSegments] at parts
  rw [pathText, List.cons_append, Address.parts_cons_slash]
  split
  · rw [Address.parts_append_slash]
    exact parts
  · rw [List.append_nil]
    exact parts

/-- The path of a link with a segment ends with a slash when one was asked for, and also when the
last segment is empty. -/
theorem getLast?_pathText {link : Link} (some_segment : link.segments ≠ []) :
    (link.pathText.getLast? == some '/') = link.found.trailingSlash := by
  rw [pathText, found]
  cases link.trailingSlash with
  | true =>
    rw [if_pos (by simpa using some_segment), List.getLast?_append]
    rfl
  | false =>
    have joined := Address.getLast?_slash_intercalate (link.notMem_writtenSegments rfl)
    have last := List.getLast?_eq_some_getLast some_segment
    rw [Bool.false_and, if_neg (by simp), List.append_nil, Bool.false_or, Bool.eq_iff_iff,
      beq_iff_eq, beq_iff_eq]
    apply joined.trans
    simp [writtenSegments, last]

/-- The path and the query of a link are cut from each other and from the mount. -/
theorem parse?_text_eq_ofParts (config : Config) (noQuery : '?' ∉ config.mount.toList)
    (noFragment : '#' ∉ config.mount.toList) (link : Link) :
    Address.parse? config (link.text config.mount) =
      some (Address.ofParts config link.pathText (Text.Form.encode link.query)) := by
  have path : '#' ∉ link.pathText ∧ '?' ∉ link.pathText :=
    ⟨link.notMem_pathText rfl (by decide), link.notMem_pathText rfl (by decide)⟩
  have whole : (link.text config.mount).toList =
      config.mount.toList ++ link.pathText ++ link.queryText := by
    simp [text]
  have uncut : Text.before '#' (link.text config.mount).toList =
      config.mount.toList ++ link.pathText ++ link.queryText := by
    rw [whole]
    refine Text.before_eq_self ?_
    simp [noFragment, path.1, link.fragmentMark_notMem_queryText]
  have noMark : '?' ∉ config.mount.toList ++ link.pathText := by simp [noQuery, path.2]
  obtain ⟨before, after⟩ := link.cut_queryText noMark
  have below : Address.below? config.mount.toList (config.mount.toList ++ link.pathText) =
      some link.pathText := by
    rw [pathText, List.cons_append]
    exact Address.below?_append _ _
  simp only [Address.parse?, uncut, before, after, below, Option.map_some]

/-- A link is read as what can be found of it, whether the parts are decoded or not. -/
theorem parse?_text_found (config : Config) (noQuery : '?' ∉ config.mount.toList)
    (noFragment : '#' ∉ config.mount.toList) (link : Link) :
    Address.parse? config (link.text config.mount) = some
      { segments := link.found.writtenSegments.map (Address.segmentOf config)
        trailingSlash := link.found.trailingSlash && !link.found.segments.isEmpty
        query := ⟨String.ofList (Text.Form.encode link.query), Query.group link.query⟩ } := by
  have slash : (!link.found.writtenSegments.isEmpty && link.pathText.getLast? == some '/') =
      (link.found.trailingSlash && !link.found.segments.isEmpty) := by
    by_cases none : link.segments = []
    · simp [writtenSegments, found, none]
    · rw [getLast?_pathText none, Bool.and_comm]
      simp [writtenSegments]
  rw [parse?_text_eq_ofParts config noQuery noFragment, Address.ofParts, parts_pathText, slash,
    Query.ofText_encode]

/-- Where parts are decoded, the segments of a link are read from their written forms. -/
theorem map_segmentOf_of_decodes {config : Config} (decodes : config.decodesSegments = true)
    (link : Link) : link.writtenSegments.map (Address.segmentOf config) = link.segments := by
  rw [writtenSegments, List.map_map]
  refine (List.map_congr_left fun segment _ => ?_).trans (List.map_id _)
  simp [Address.segmentOf, decodes]

section

variable {link : Link} (present : ∀ text ∈ link.segments, text ≠ "")
include present

/-- A link without empty segments is read part by part. -/
theorem parse?_text_eq (config : Config) (noQuery : '?' ∉ config.mount.toList)
    (noFragment : '#' ∉ config.mount.toList) :
    Address.parse? config (link.text config.mount) = some
      { segments := link.writtenSegments.map (Address.segmentOf config)
        trailingSlash := link.trailingSlash && !link.segments.isEmpty
        query := ⟨String.ofList (Text.Form.encode link.query), Query.group link.query⟩ } := by
  rw [parse?_text_found config noQuery noFragment, found_eq_self present]

/-- The address that is read from a link has its segments, its slash and its query. -/
theorem parse?_text {config : Config} (decodes : config.decodesSegments = true)
    (noQuery : '?' ∉ config.mount.toList) (noFragment : '#' ∉ config.mount.toList) :
    Address.parse? config (link.text config.mount) = some
      { segments := link.segments
        trailingSlash := link.trailingSlash && !link.segments.isEmpty
        query := ⟨String.ofList (Text.Form.encode link.query), Query.group link.query⟩ } := by
  rw [parse?_text_eq present config noQuery noFragment, map_segmentOf_of_decodes decodes]

end

end Link

end RouteTree
