import RouteTree.Pattern.Parser
import Mathlib.Data.List.Nodup

/-! # What the reader of patterns accepts

Each reader is characterised by the texts it accepts: the path reader by the joined texts of its
segments, the search reader by the joined names. Since both directions are carried along, the whole
reader comes out as the inverse of the written form: `parse_eq_ok_iff`.
-/

namespace RouteTree

/-- A segment whose literal or name is proper. -/
def Segment.IsProper : Segment → Prop
  | .literal text => Pattern.IsLiteralText text
  | .parameter name => Pattern.IsName name

-- Only the characters of the text are tried, not all characters that there are.
instance : DecidablePred Segment.IsProper
  | .literal text =>
    @instDecidableAnd (text ≠ "") _ inferInstance (List.decidableBAll _ text.toList)
  | .parameter name =>
    @instDecidableAnd (name ≠ "") _ inferInstance (List.decidableBAll _ name.toList)

namespace Pattern

/-! ## Classes of characters -/

theorem isName_iff {name : String} (clean : '#' ∉ name.toList) :
    IsName name ↔ name ≠ "" ∧ ∀ char ∈ name.toList, endsName char = false := by
  refine and_congr_right fun _ => forall₂_congr fun char member => ?_
  have kept : char ≠ '#' := by rintro rfl; exact clean member
  simp [endsName, endsSegment, isForbiddenInName, kept]
  tauto

theorem isLiteralText_iff {text : String} (clean : '#' ∉ text.toList) :
    IsLiteralText text ↔
      text ≠ "" ∧ ∀ char ∈ text.toList, char ∉ ['/', '?', '&', '\x7b', '\x7d'] := by
  refine and_congr_right fun _ => forall₂_congr fun char member => ?_
  have kept : char ≠ '#' := by rintro rfl; exact clean member
  simp [kept]

/-- Away from the fragment mark, the reader asks for a proper segment with a new name. -/
theorem isReadable_iff {used : List String} {segment : Segment}
    (clean : '#' ∉ segment.text.toList) :
    IsReadable used segment ↔ segment.IsProper ∧ ∀ name ∈ segment.name?, name ∉ used := by
  cases segment with
  | literal text =>
    have same := isLiteralText_iff (show '#' ∉ text.toList from clean)
    simp [IsReadable, Segment.IsProper, Segment.name?, same]
  | parameter name =>
    have inside : '#' ∉ name.toList := by
      simpa [Segment.text, Segment.braced] using clean
    simp [IsReadable, Segment.IsProper, Segment.name?, isName_iff inside, and_assoc]

/-- Segments that can be read one after another, the name of each being new for those after it. -/
def AreReadable : List String → List Segment → Prop
  | _, [] => True
  | used, segment :: rest =>
    IsReadable used segment ∧ AreReadable (used ++ segment.name?.toList) rest

theorem filterMap_name?_cons (segment : Segment) (rest : List Segment) :
    (segment :: rest).filterMap Segment.name? =
      segment.name?.toList ++ rest.filterMap Segment.name? := by
  cases segment <;> rfl

theorem areReadable_iff {used : List String} (distinct : used.Nodup) {segments : List Segment}
    (clean : ∀ segment ∈ segments, '#' ∉ segment.text.toList) :
    AreReadable used segments ↔ (∀ segment ∈ segments, segment.IsProper) ∧
      (used ++ segments.filterMap Segment.name?).Nodup := by
  induction segments generalizing used with
  | nil => simpa [AreReadable] using distinct
  | cons segment rest ih =>
    simp only [List.forall_mem_cons] at clean ⊢
    rw [AreReadable, isReadable_iff clean.1, filterMap_name?_cons, ← List.append_assoc]
    have fresh : (∀ name ∈ segment.name?, name ∉ used) ↔ (used ++ segment.name?.toList).Nodup := by
      cases segment with
      | literal text => simpa [Segment.name?] using distinct
      | parameter name => simp [Segment.name?, ← List.concat_eq_append, List.nodup_concat, distinct]
    constructor
    · rintro ⟨⟨proper, new⟩, others⟩
      obtain ⟨properRest, apart⟩ := (ih (fresh.mp new) clean.2).mp others
      exact ⟨⟨proper, properRest⟩, apart⟩
    · rintro ⟨⟨proper, properRest⟩, apart⟩
      have new := (List.nodup_append.mp apart).1
      exact ⟨⟨proper, fresh.mpr new⟩, (ih new clean.2).mpr ⟨properRest, apart⟩⟩

/-! ## The path -/

/-- The written form of a path without its leading slash. -/
def joined (segments : List Segment) (trailingSlash : Bool) : List Char :=
  ['/'].intercalate (segments.map fun segment => segment.text.toList) ++
    if trailingSlash then ['/'] else []

theorem joined_cons_cons (segment next : Segment) (rest : List Segment) (trailingSlash : Bool) :
    joined (segment :: next :: rest) trailingSlash =
      segment.text.toList ++ '/' :: joined (next :: rest) trailingSlash := by
  simp [joined]

theorem toList_braced (name : String) :
    (Segment.braced name).toList = '\x7b' :: (name.toList ++ ['\x7d']) := by
  simp [Segment.braced]

/-- A segment starts with a character of its own, never with a slash or a question mark. -/
theorem exists_head_text {used : List String} {segment : Segment}
    (proper : IsReadable used segment) :
    ∃ first others, segment.text.toList = first :: others ∧ first ≠ '/' ∧ first ≠ '?' := by
  cases segment with
  | parameter name => exact ⟨'\x7b', _, toList_braced name, by decide, by decide⟩
  | literal text =>
    cases whole : text.toList with
    | nil => exact (proper.1 (by simpa using whole)).elim
    | cons first others =>
      have plain := proper.2 first (by simp [whole])
      simp only [List.mem_cons, not_or] at plain
      exact ⟨first, others, whole, plain.1, plain.2.1⟩

theorem exists_head_joined {used : List String} {segment : Segment} {rest : List Segment}
    (readable : AreReadable used (segment :: rest)) (trailingSlash : Bool) :
    ∃ first others, joined (segment :: rest) trailingSlash = first :: others ∧
      first ≠ '/' ∧ first ≠ '?' := by
  obtain ⟨first, others, whole, plain⟩ := exists_head_text readable.1
  cases rest with
  | nil => exact ⟨first, _, by rw [joined, List.map_singleton, List.intercalate_singleton, whole,
      List.cons_append], plain⟩
  | cons next more => exact ⟨first, _, by rw [joined_cons_cons, whole, List.cons_append], plain⟩

/-- A segment does not stand where a path ends. -/
theorem not_atPathEnd {used : List String} {segment : Segment} (proper : IsReadable used segment)
    (rest : List Char) : atPathEnd (segment.text.toList ++ rest) = false := by
  obtain ⟨first, others, whole, _, plain⟩ := exists_head_text proper
  simp [whole, atPathEnd, plain]

theorem not_atPathEnd_joined {used : List String} {segment : Segment} {rest : List Segment}
    (readable : AreReadable used (segment :: rest)) (trailingSlash : Bool) (after : List Char) :
    atPathEnd (joined (segment :: rest) trailingSlash ++ after) = false := by
  obtain ⟨first, others, whole, _, plain⟩ := exists_head_joined readable trailingSlash
  simp [whole, atPathEnd, plain]

theorem stopsSegment_of_atPathEnd {rest : List Char} (ended : atPathEnd rest = true) :
    StopsSegment rest := by
  cases rest with
  | nil => simp [StopsSegment]
  | cons first others =>
    simp only [atPathEnd, beq_iff_eq] at ended
    simp [StopsSegment, endsSegment, ended]

/-- What a path reading says of the text it was made from. -/
structure PathReading.Reads (path : PathReading) (used : List String) (text : List Char) :
    Prop where
  text_eq : text = joined path.segments path.trailingSlash ++ path.rest
  names_eq : path.names = used ++ path.segments.filterMap Segment.name?
  readable : AreReadable used path.segments
  ended : atPathEnd path.rest = true
  slash_after_segment : path.segments = [] → path.trailingSlash = false

theorem reads_of_readPath {used : List String} {text : List Char} {path : PathReading}
    (success : readPath used text = .ok path) : path.Reads used text := by
  fun_induction readPath used text generalizing path with
  | case1 used text ended =>
    obtain rfl := Except.ok.inj success
    exact ⟨by simp [joined], by simp, trivial, ended, fun _ => rfl⟩
  | case2 => contradiction
  | case3 used text _ segment rest read ended =>
    obtain rfl := Except.ok.inj success
    obtain ⟨whole, proper, _⟩ := readSegment_eq_ok_iff.mp read
    exact ⟨by simp [joined, whole], by simp [filterMap_name?_cons], ⟨proper, trivial⟩, ended,
      by simp⟩
  | case4 used text _ segment rest read more ih =>
    cases further : readPath (used ++ segment.name?.toList) rest with
    | error reason => rw [further] at success; contradiction
    | ok onward =>
      rw [further] at success
      obtain rfl := Except.ok.inj success
      obtain ⟨whole, proper, _⟩ := readSegment_eq_ok_iff.mp read
      obtain ⟨text_eq, names_eq, readable, ended, slash⟩ := ih further
      refine ⟨?_, by simp [PathReading.after, names_eq, filterMap_name?_cons], ⟨proper, readable⟩,
        ended, by simp [PathReading.after]⟩
      cases segments : onward.segments with
      | nil =>
        -- The slash before `rest` would have been the trailing one.
        rw [segments, slash segments] at text_eq
        rw [text_eq] at more
        exact (more (by simpa [joined] using ended)).elim
      | cons next others =>
        simp only [PathReading.after, segments, joined_cons_cons]
        rw [whole, text_eq, segments, List.append_assoc, List.cons_append]
  | case5 used text _ segment rest unslashed read =>
    obtain rfl := Except.ok.inj success
    obtain ⟨whole, proper, stop⟩ := readSegment_eq_ok_iff.mp read
    refine ⟨by simp [joined, whole], by simp [filterMap_name?_cons], ⟨proper, trivial⟩, ?_, by simp⟩
    cases rest with
    | nil => rfl
    | cons first others =>
      have ends := stop first rfl
      simp only [endsSegment, Bool.or_eq_true, beq_iff_eq] at ends
      rcases ends with rfl | rfl
      · exact (unslashed others rfl).elim
      · rfl

section

variable {used : List String} {text rest : List Char} {segment : Segment}

/-- A slash after a segment is the trailing one or leads on. -/
theorem readPath_slash (more : atPathEnd text = false)
    (read : readSegment used text = .ok (segment, '/' :: rest)) :
    readPath used text =
      if atPathEnd rest then .ok ⟨[segment], used ++ segment.name?.toList, true, rest⟩
      else (readPath (used ++ segment.name?.toList) rest).map (.after segment) := by
  rw [readPath, if_neg (by simp [more])]
  split
  · next failed => rw [read] at failed; contradiction
  · next same =>
    rw [read] at same
    cases same
    rfl
  · next unslashed same =>
    rw [read] at same
    cases same
    exact (unslashed rest rfl).elim

/-- Without a slash the path ends after a segment. -/
theorem readPath_last (more : atPathEnd text = false)
    (read : readSegment used text = .ok (segment, rest)) (ended : atPathEnd rest = true) :
    readPath used text = .ok ⟨[segment], used ++ segment.name?.toList, false, rest⟩ := by
  rw [readPath, if_neg (by simp [more])]
  split
  · next failed => rw [read] at failed; contradiction
  · next same =>
    rw [read] at same
    cases same
    simp [atPathEnd] at ended
  · next same =>
    rw [read] at same
    cases same
    rfl

end

theorem readPath_of_reads {path : PathReading} {used : List String} {text : List Char}
    (reads : path.Reads used text) : readPath used text = .ok path := by
  obtain ⟨segments, names, trailingSlash, rest⟩ := path
  obtain ⟨text_eq, names_eq, readable, ended, slash⟩ := reads
  simp only at text_eq names_eq readable ended slash
  induction segments generalizing used text with
  | nil =>
    obtain rfl := slash rfl
    obtain rfl : text = rest := by simpa [joined] using text_eq
    obtain rfl : names = used := by simpa using names_eq
    rw [readPath, if_pos ended]
  | cons segment others ih =>
    obtain ⟨proper, readable⟩ := readable
    have names_eq : names = used ++ segment.name?.toList ++ others.filterMap Segment.name? := by
      rw [names_eq, filterMap_name?_cons, List.append_assoc]
    have read {after : List Char} (stop : StopsSegment after) :
        readSegment used (segment.text.toList ++ after) = .ok (segment, after) :=
      readSegment_eq_ok_iff.mpr ⟨rfl, proper, stop⟩
    have slashStops {after : List Char} : StopsSegment ('/' :: after) := by
      rintro char ⟨⟩
      rfl
    cases others with
    | nil =>
      obtain rfl : names = used ++ segment.name?.toList := by simpa using names_eq
      cases trailingSlash with
      | false =>
        obtain rfl : text = segment.text.toList ++ rest := by simpa [joined] using text_eq
        exact readPath_last (not_atPathEnd proper rest) (read (stopsSegment_of_atPathEnd ended))
          ended
      | true =>
        obtain rfl : text = segment.text.toList ++ '/' :: rest := by simpa [joined] using text_eq
        rw [readPath_slash (not_atPathEnd proper _) (read slashStops), if_pos ended]
    | cons next others =>
      rw [joined_cons_cons, List.append_assoc, List.cons_append] at text_eq
      subst text_eq
      have more := not_atPathEnd_joined readable trailingSlash rest
      rw [readPath_slash (not_atPathEnd proper _) (read slashStops), if_neg (by simp [more]),
        ih rfl names_eq readable (by simp)]
      rfl

theorem readPath_eq_ok_iff {path : PathReading} {used : List String} {text : List Char} :
    readPath used text = .ok path ↔ path.Reads used text :=
  ⟨reads_of_readPath, readPath_of_reads⟩

/-! ## The search -/

/-- The written form of a search without its question mark. -/
def joinedNames (names : List String) : List Char :=
  ['&'].intercalate (names.map fun name => (Segment.braced name).toList)

theorem joinedNames_cons_cons (name next : String) (rest : List String) :
    joinedNames (name :: next :: rest) =
      '\x7b' :: (name.toList ++ '\x7d' :: '&' :: joinedNames (next :: rest)) := by
  simp [joinedNames, toList_braced]

theorem joinedNames_singleton (name : String) :
    joinedNames [name] = '\x7b' :: (name.toList ++ ['\x7d']) := by
  simp [joinedNames, toList_braced]

theorem text_of_readSearch {used names : List String} {text : List Char}
    (success : readSearch used text = .ok names) :
    text = joinedNames names ∧ names ≠ [] ∧ AreReadable used (names.map .parameter) := by
  fun_induction readSearch used text generalizing names with
  | case1 => contradiction
  | case2 used text name read =>
    obtain rfl := Except.ok.inj success
    obtain ⟨whole, proper⟩ := readName_eq_ok_iff.mp read
    exact ⟨by rw [whole, joinedNames_singleton], by simp, proper, trivial⟩
  | case3 used text name rest read ih =>
    cases further : readSearch (used ++ [name]) rest with
    | error reason => rw [further] at success; contradiction
    | ok others =>
      rw [further] at success
      obtain rfl := Except.ok.inj success
      obtain ⟨whole, proper⟩ := readName_eq_ok_iff.mp read
      obtain ⟨text_eq, present, readable⟩ := ih further
      obtain ⟨next, more, rfl⟩ := List.exists_cons_of_ne_nil present
      exact ⟨by rw [whole, text_eq, joinedNames_cons_cons], by simp, proper, readable⟩
  | case4 => contradiction
  | case5 => contradiction

theorem readSearch_brace (used : List String) (text : List Char) :
    readSearch used ('\x7b' :: text) =
      match readName used text with
      | .error reason => .error reason
      | .ok (name, []) => .ok [name]
      | .ok (name, '&' :: rest) => (readSearch (used ++ [name]) rest).map (name :: ·)
      | .ok (_, found :: _) => .error (.textAfterSearchParameter found) := by
  rw [readSearch]
  split <;> simp_all

theorem readSearch_of_text {used names : List String} (present : names ≠ [])
    (readable : AreReadable used (names.map .parameter)) :
    readSearch used (joinedNames names) = .ok names := by
  induction names generalizing used with
  | nil => contradiction
  | cons name rest ih =>
    obtain ⟨proper, readable⟩ := readable
    have read (after : List Char) :
        readName used (name.toList ++ '\x7d' :: after) = .ok (name, after) :=
      readName_eq_ok_iff.mpr ⟨rfl, proper⟩
    cases rest with
    | nil => rw [joinedNames_singleton, readSearch_brace, read]
    | cons next others =>
      have onward : readSearch (used ++ [name]) (joinedNames (next :: others)) =
          .ok (next :: others) := ih (by simp) readable
      rw [joinedNames_cons_cons, readSearch_brace, read]
      simp only [onward]
      rfl

theorem readSearch_eq_ok_iff {used names : List String} {text : List Char} :
    readSearch used text = .ok names ↔
      text = joinedNames names ∧ names ≠ [] ∧ AreReadable used (names.map .parameter) :=
  ⟨text_of_readSearch, fun ⟨text_eq, present, readable⟩ =>
    text_eq ▸ readSearch_of_text present readable⟩

theorem readTail_eq_ok_iff {used names : List String} {rest : List Char}
    (ended : atPathEnd rest = true) :
    readTail used rest = .ok names ↔
      rest = (if names = [] then [] else '?' :: joinedNames names) ∧
        AreReadable used (names.map .parameter) := by
  cases rest with
  | nil =>
    constructor
    · rintro ⟨⟩
      exact ⟨rfl, trivial⟩
    · rintro ⟨empty, _⟩
      by_cases none : names = []
      · rw [none]; rfl
      · rw [if_neg none] at empty; contradiction
  | cons first search =>
    obtain rfl : first = '?' := by simpa [atPathEnd] using ended
    rw [readTail, readSearch_eq_ok_iff]
    by_cases none : names = []
    · simp [none]
    · simp [none]

/-! ## The whole pattern -/

theorem areReadable_append {used : List String} {first second : List Segment} :
    AreReadable used (first ++ second) ↔ AreReadable used first ∧
      AreReadable (used ++ first.filterMap Segment.name?) second := by
  induction first generalizing used with
  | nil => simp [AreReadable]
  | cons segment rest ih =>
    simp only [List.cons_append, AreReadable, ih, filterMap_name?_cons, List.append_assoc,
      and_assoc]

theorem filterMap_name?_parameter (names : List String) :
    (names.map Segment.parameter).filterMap Segment.name? = names := by
  induction names with
  | nil => rfl
  | cons name rest ih => rw [List.map_cons, filterMap_name?_cons, ih]; rfl

/-- The segments of a pattern and, as parameters, its search names. -/
def places (pattern : Pattern) : List Segment :=
  pattern.segments ++ pattern.searchNames.map .parameter

theorem forall_mem_places_iff {pattern : Pattern} {property : Segment → Prop} :
    (∀ segment ∈ pattern.places, property segment) ↔
      (∀ segment ∈ pattern.segments, property segment) ∧
        ∀ name ∈ pattern.searchNames, property (.parameter name) := by
  simp only [places, List.forall_mem_append, List.forall_mem_map]

theorem wellFormed_iff {pattern : Pattern} :
    pattern.WellFormed ↔ pattern.segments ≠ [] ∧
      pattern.parameters = pattern.segments.filterMap Segment.name? ∧
        (∀ segment ∈ pattern.places, segment.IsProper) ∧
          (pattern.places.filterMap Segment.name?).Nodup := by
  rw [forall_mem_places_iff, places, List.filterMap_append, filterMap_name?_parameter]
  constructor
  · rintro ⟨present, literals, names, parameters_eq, distinct⟩
    rw [parameters_eq] at names distinct
    refine ⟨present, parameters_eq, ⟨fun segment member => ?_, fun name member => ?_⟩, distinct⟩
    · cases segment with
      | literal text => exact literals text member
      | parameter name =>
        exact names name (List.mem_append_left _ (List.mem_filterMap.mpr ⟨_, member, rfl⟩))
    · exact names name (List.mem_append_right _ member)
  · rintro ⟨present, parameters_eq, ⟨proper, names⟩, distinct⟩
    refine ⟨present, fun text member => proper _ member, ?_, parameters_eq,
      parameters_eq ▸ distinct⟩
    rw [parameters_eq]
    intro name member
    rcases List.mem_append.mp member with inPath | inSearch
    · obtain ⟨segment, listed, named⟩ := List.mem_filterMap.mp inPath
      cases segment with
      | literal text => contradiction
      | parameter other =>
        obtain rfl := Option.some.inj named
        exact proper _ listed
    · exact names name inSearch

instance (pattern : Pattern) : Decidable pattern.WellFormed :=
  decidable_of_iff _ wellFormed_iff.symm

theorem toList_text (pattern : Pattern) :
    pattern.text.toList = (if pattern.leadingSlash then ['/'] else []) ++
      joined pattern.segments pattern.trailingSlash ++
        if pattern.searchNames = [] then [] else '?' :: joinedNames pattern.searchNames := by
  have path : ("/".intercalate (pattern.segments.map Segment.text)).toList =
      ['/'].intercalate (pattern.segments.map fun segment => segment.text.toList) := by
    rw [String.toList_intercalate, List.map_map]
    rfl
  have search : ("&".intercalate (pattern.searchNames.map Segment.braced)).toList =
      joinedNames pattern.searchNames := by
    rw [String.toList_intercalate, List.map_map]
    rfl
  simp only [text, pathText, String.toList_append, path, joined, List.append_assoc]
  congr 1
  · split <;> rfl
  congr 2
  · split <;> rfl
  · simp only [List.isEmpty_iff]
    split
    · rfl
    · rw [String.toList_append, search]
      rfl

theorem fragmentMark_notMem_segment {segment : Segment} (proper : segment.IsProper) :
    '#' ∉ segment.text.toList := by
  intro member
  cases segment with
  | literal text => simpa using proper.2 '#' member
  | parameter name =>
    simp only [Segment.text, toList_braced, List.mem_cons, List.mem_append] at member
    simpa using proper.2 '#' (by simpa using member)

/-- The fragment mark stands in a written pattern only if it stands in one of its places. -/
theorem fragmentMark_notMem_iff {pattern : Pattern} :
    '#' ∉ pattern.text.toList ↔ ∀ segment ∈ pattern.places, '#' ∉ segment.text.toList := by
  have path : '#' ∈ joined pattern.segments pattern.trailingSlash ↔
      ∃ segment ∈ pattern.segments, '#' ∈ segment.text.toList := by
    have slash : '#' ∉ (if pattern.trailingSlash then ['/'] else []) := by split <;> simp
    simp [joined, Text.mem_intercalate_iff, slash]
  have search : '#' ∈ joinedNames pattern.searchNames ↔
      ∃ name ∈ pattern.searchNames, '#' ∈ (Segment.parameter name).text.toList := by
    simp [joinedNames, Text.mem_intercalate_iff, Segment.text]
  have leading : '#' ∉ (if pattern.leadingSlash then ['/'] else []) := by split <;> simp
  rw [forall_mem_places_iff, toList_text, List.mem_append, List.mem_append, path]
  by_cases none : pattern.searchNames = []
  · simp [none, leading]
  · simp [none, leading, search]

/-! ## Reading is the inverse of writing -/

theorem read_eq_ok_iff {text : List Char} {pattern : Pattern} :
    read text = .ok pattern ↔ '#' ∉ text ∧ pattern.leadingSlash = (text.head? == some '/') ∧
      ∃ rest, readPath [] (if pattern.leadingSlash then text.drop 1 else text) =
          .ok ⟨pattern.segments, pattern.parameters, pattern.trailingSlash, rest⟩ ∧
        pattern.segments ≠ [] ∧ readTail pattern.parameters rest = .ok pattern.searchNames := by
  simp only [read, bind, Except.bind, pure, Except.pure, throw, throwThe, MonadExceptOf.throw]
  by_cases marked : '#' ∈ text
  · simp [marked]
  rw [if_neg marked]
  constructor
  · intro success
    cases path : readPath [] (if text.head? == some '/' then text.drop 1 else text) with
    | error reason => rw [path] at success; contradiction
    | ok reading =>
      simp only [path] at success
      split at success
      · contradiction
      next present =>
        cases tail : readTail reading.names reading.rest with
        | error reason => rw [tail] at success; contradiction
        | ok names =>
          rw [tail] at success
          obtain rfl := Except.ok.inj success
          exact ⟨marked, rfl, reading.rest, path, by simpa using present, tail⟩
  · rintro ⟨_, leading, rest, path, present, tail⟩
    rw [leading] at path
    simp only [path, tail, List.isEmpty_iff, present, if_false]
    rw [← leading]

theorem wellFormed_of_read {text : List Char} {pattern : Pattern}
    (success : read text = .ok pattern) : pattern.WellFormed ∧ pattern.text.toList = text := by
  obtain ⟨noMark, leading, rest, path, present, tail⟩ := read_eq_ok_iff.mp success
  obtain ⟨text_eq, names_eq, readable, ended, _⟩ := readPath_eq_ok_iff.mp path
  obtain ⟨rest_eq, searched⟩ := (readTail_eq_ok_iff ended).mp tail
  simp only [List.nil_append] at text_eq names_eq readable
  have written : pattern.text.toList = text := by
    rw [toList_text, ← rest_eq, List.append_assoc, ← text_eq, leading]
    cases text with
    | nil => simp
    | cons first others => by_cases slash : first = '/' <;> simp [slash]
  have clean := fragmentMark_notMem_iff.mp (written ▸ noMark)
  have readable : AreReadable [] pattern.places :=
    areReadable_append.mpr ⟨readable, by rwa [List.nil_append, ← names_eq]⟩
  obtain ⟨propers, distinct⟩ := (areReadable_iff List.nodup_nil clean).mp readable
  exact ⟨wellFormed_iff.mpr ⟨present, names_eq, propers, distinct⟩, written⟩

theorem read_of_wellFormed {pattern : Pattern} (proper : pattern.WellFormed) :
    read pattern.text.toList = .ok pattern := by
  obtain ⟨present, parameters_eq, propers, distinct⟩ := wellFormed_iff.mp proper
  have clean : ∀ segment ∈ pattern.places, '#' ∉ segment.text.toList :=
    fun segment member => fragmentMark_notMem_segment (propers segment member)
  have readable : AreReadable [] pattern.places :=
    (areReadable_iff List.nodup_nil clean).mpr ⟨propers, distinct⟩
  rw [places, areReadable_append, List.nil_append, ← parameters_eq] at readable
  have leading : pattern.leadingSlash = (pattern.text.toList.head? == some '/') := by
    obtain ⟨segment, others, segments⟩ := List.exists_cons_of_ne_nil present
    obtain ⟨first, more, whole, plain, _⟩ :=
      exists_head_joined (segments ▸ readable.1) pattern.trailingSlash
    rw [toList_text, segments, whole]
    cases pattern.leadingSlash <;> simp [plain]
  have ended : atPathEnd
      (if pattern.searchNames = [] then [] else '?' :: joinedNames pattern.searchNames) = true := by
    split <;> rfl
  refine read_eq_ok_iff.mpr ⟨fragmentMark_notMem_iff.mpr clean, leading, _, ?_, present,
    (readTail_eq_ok_iff ended).mpr ⟨rfl, readable.2⟩⟩
  refine readPath_eq_ok_iff.mpr ⟨?_, by simpa using parameters_eq, readable.1, ended,
    fun empty => (present empty).elim⟩
  rw [toList_text]
  cases pattern.leadingSlash <;> simp

/-- Reading accepts the written forms of well-formed patterns and gives the pattern back. -/
theorem parse_eq_ok_iff {text : String} {pattern : Pattern} :
    parse text = .ok pattern ↔ pattern.WellFormed ∧ pattern.text = text := by
  have success : parse text = .ok pattern ↔ read text.toList = .ok pattern := by
    simp only [parse]
    cases read text.toList <;> simp [Except.mapError]
  rw [success]
  constructor
  · intro read
    obtain ⟨proper, written⟩ := wellFormed_of_read read
    exact ⟨proper, String.toList_inj.mp written⟩
  · rintro ⟨proper, rfl⟩
    exact read_of_wellFormed proper

end Pattern

end RouteTree
