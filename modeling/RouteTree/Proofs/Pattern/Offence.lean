import RouteTree.Proofs.Pattern.Judgement
import RouteTree.Proofs.Pattern.Reading
import Mathlib.Data.List.TakeWhile

/-! # The first offence of a pattern text

The reader goes over a text once, by position; the judgement cuts it into pieces first. That they
agree is shown from the smallest part up: a name, a piece of the path, the path, an item of the
search, the search. Each part is read in front of what follows it as it is judged alone, so that
what is read of the whole text is `judged (offence? text) (patternOf text)`.
-/

namespace RouteTree

namespace Pattern

/-! ## Names -/

/-- A reading that an offence turns into a failure. -/
def judged {α : Type} (offence : Option Reason) (reading : α) : Except Reason α :=
  offence.elim (.ok reading) .error

section Names

variable {used : List String} {text after : List Char}

theorem endsName_eq (char : Char) : endsName char = decide (char ∈ nameStops) := by
  rw [Bool.eq_iff_iff]
  simp [endsName, endsSegment, isForbiddenInName, nameStops]
  tauto

theorem upTo_endsName (text : List Char) :
    String.ofList (Text.upTo endsName text) = nameAt text := by
  simp only [nameAt, Text.upTo, endsName_eq, decide_not]

theorem onward_endsName (text : List Char) :
    Text.onward endsName text = (text.find? (· ∈ nameStops)).toList ++ afterName text := by
  simp only [Text.onward, afterName, endsName_eq, decide_not]
  induction text with
  | nil => rfl
  | cons char rest ih =>
    by_cases stops : char ∈ nameStops
    · simp [stops]
    · simpa [stops] using ih

/-- What follows a piece ends a name in it. -/
def EndsPiece (after : List Char) : Prop :=
  ∀ char, after.head? = some char → char ∈ ['/', '?', '&']

/-- A name in a piece is read from the text as it is judged in the piece. -/
theorem readName_append (ends : EndsPiece after) :
    readName used (text ++ after) =
      judged (nameOffence? used after.head? text) (nameAt text, afterName text ++ after) := by
  have stops : ∀ char, after.head? = some char → endsName char = true := by
    intro char first
    have mark := ends char first
    simp only [List.mem_cons, List.not_mem_nil, or_false] at mark
    rcases mark with rfl | rfl | rfl <;> rfl
  obtain ⟨before, onward⟩ := Text.upTo_append_of_stop text stops
  simp only [readName, before, upTo_endsName, onward, onward_endsName, nameOffence?]
  cases found : text.find? (· ∈ nameStops) with
  | none =>
    have nothing : afterName text = [] := by
      have unstopped := List.find?_eq_none.mp found
      rw [afterName, List.dropWhile_eq_nil_iff.mpr (by simpa using unstopped), List.drop_nil]
    rw [nothing]
    cases after with
    | nil => rfl
    | cons first rest =>
      have mark := ends first rfl
      simp only [List.mem_cons, List.not_mem_nil, or_false] at mark
      rcases mark with rfl | rfl | rfl <;> rfl
  | some stop =>
    have forbidden : some stop ∈ [some '\x7b', some '&', some ':'] ↔
        isForbiddenInName stop = true := by
      simp [isForbiddenInName, or_assoc]
    simp only [Option.toList_some, List.cons_append, Option.some_or,
      forbidden, ne_eq, Option.some.injEq]
    split_ifs <;> rfl

end Names

/-! ## Pieces of the path -/

section Pieces

variable {used : List String} {piece after : List Char}

theorem readLiteral_append (inside : ∀ char ∈ piece, endsSegment char = false)
    (stop : StopsSegment after) :
    readLiteral (piece ++ after) =
      if piece = [] then .error .emptySegment
      else if '&' ∈ piece then .error .ampersandInSegment
      else if '\x7b' ∈ piece ∨ '\x7d' ∈ piece then .error .braceInSegment
      else .ok (.literal (String.ofList piece), after) := by
  obtain ⟨before, onward⟩ := Text.upTo_append inside after stop
  simp only [readLiteral, before, onward]

theorem readParameter_append {text : List Char} (inside : ∀ char ∈ text, endsSegment char = false)
    (stop : StopsSegment after) :
    readParameter used (text ++ after) =
      judged ((nameOffence? used after.head? text).or
        ((afterName text).head?.map .textAfterParameter)) (.parameter (nameAt text), after) := by
  have ends : EndsPiece after := by
    intro char first
    have mark := stop char first
    simp only [endsSegment, Bool.or_eq_true, beq_iff_eq] at mark
    simpa using mark.imp_right .inl
  rw [readParameter, readName_append ends]
  cases nameOffence? used after.head? text with
  | some reason => rfl
  | none =>
    simp only [judged, Option.elim_none, Option.none_or]
    cases left : afterName text with
    | nil =>
      cases after with
      | nil => rfl
      | cons first rest => simp [stop first rfl]
    | cons found rest =>
      have read : endsSegment found = false :=
        inside found (mem_of_mem_afterName (by simp [left]))
      simp [read]

/-- A piece that starts with no brace is a literal. -/
theorem readSegment_of_head? {text : List Char} (plain : text.head? ≠ some '\x7b') :
    readSegment used text = readLiteral text := by
  rw [readSegment]
  rintro rest rfl
  exact plain rfl

/-- A piece is read from the text as it is judged. -/
theorem readSegment_append (inside : ∀ char ∈ piece, endsSegment char = false)
    (stop : StopsSegment after) :
    readSegment used (piece ++ after) =
      judged (pieceOffence? used after.head? piece) (segmentOf piece, after) := by
  have literal := readLiteral_append inside stop
  cases piece with
  | nil =>
    have plain : after.head? ≠ some '\x7b' := by
      intro first
      simpa [endsSegment] using stop '\x7b' first
    rw [List.nil_append, readSegment_of_head? plain]
    exact literal
  | cons first others =>
    by_cases brace : first = '\x7b'
    · subst brace
      exact readParameter_append (fun char member => inside char (List.mem_cons_of_mem _ member))
        stop
    · have plain : (first :: others).head? ≠ some '\x7b' := by simpa using brace
      have present := List.cons_ne_nil first others
      have unopened : (first :: others ++ after).head? ≠ some '\x7b' := plain
      rw [readSegment_of_head? unopened, literal, if_neg present,
        pieceOffence?_plain present plain, segmentOf_plain plain]
      split_ifs <;> rfl

/-! ## The path -/

theorem readPath_error {text : List Char} {reason : Reason} (more : atPathEnd text = false)
    (read : readSegment used text = .error reason) : readPath used text = .error reason := by
  rw [readPath, if_neg (by simp [more])]
  split <;> simp_all

theorem atPathEnd_append {text : List Char} (present : piece ≠ []) (inside : '?' ∉ piece) :
    atPathEnd (piece ++ text) = false := by
  obtain ⟨first, others, rfl⟩ := List.exists_cons_of_ne_nil present
  have plain : first ≠ '?' := by
    rintro rfl
    exact inside List.mem_cons_self
  simpa [atPathEnd] using plain

/-- What is read of a path that is not refused. -/
def readingOf (used : List String) (path tail : List Char) : PathReading where
  segments := (piecesOf path).map segmentOf
  names := used ++ ((piecesOf path).map segmentOf).filterMap Segment.name?
  trailingSlash := path.getLast? == some '/'
  rest := tail

theorem readingOf_of_notMem (present : piece ≠ []) (whole : '/' ∉ piece) (tail : List Char) :
    readingOf used piece tail =
      ⟨[segmentOf piece], used ++ (segmentOf piece).name?.toList, false, tail⟩ := by
  have unslashed : piece.getLast? ≠ some '/' := fun last => whole (List.mem_of_getLast? last)
  simp [readingOf, piecesOf_of_notMem present whole, filterMap_name?_cons, unslashed]

theorem readingOf_slash_nil (whole : '/' ∉ piece) (tail : List Char) :
    readingOf used (piece ++ ['/']) tail =
      ⟨[segmentOf piece], used ++ (segmentOf piece).name?.toList, true, tail⟩ := by
  simp [readingOf, piecesOf_slash whole, piecesOf_nil, filterMap_name?_cons]

theorem readingOf_slash (whole : '/' ∉ piece) {rest : List Char} (present : rest ≠ [])
    (tail : List Char) :
    readingOf used (piece ++ '/' :: rest) tail =
      (readingOf (used ++ (segmentOf piece).name?.toList) rest tail).after (segmentOf piece) := by
  simp [readingOf, piecesOf_slash whole, filterMap_name?_cons, PathReading.after, present,
    List.getLast?_cons_of_ne_nil present]

theorem endsSegment_eq_false (inside : '?' ∉ piece) (whole : '/' ∉ piece) :
    ∀ char ∈ piece, endsSegment char = false := by
  intro char member
  simp [endsSegment, ne_of_mem_of_not_mem member inside, ne_of_mem_of_not_mem member whole]

/-- The last piece of a path is read as it is judged. -/
theorem readPath_piece {tail : List Char} (present : piece ≠ []) (inside : '?' ∉ piece)
    (whole : '/' ∉ piece) (ended : atPathEnd tail = true) :
    readPath used (piece ++ tail) =
      judged (pieceOffence? used tail.head? piece) (readingOf used piece tail) := by
  have more : atPathEnd (piece ++ tail) = false := atPathEnd_append present inside
  have read : readSegment used (piece ++ tail) =
      judged (pieceOffence? used tail.head? piece) (segmentOf piece, tail) :=
    readSegment_append (endsSegment_eq_false inside whole) (stopsSegment_of_atPathEnd ended)
  cases offence : pieceOffence? used tail.head? piece with
  | some reason =>
    rw [offence] at read
    exact readPath_error more read
  | none =>
    rw [offence] at read
    rw [readPath_last more read ended, readingOf_of_notMem present whole]
    rfl

/-- A path is read as its pieces are judged, from left to right. -/
theorem readPath_append {path tail : List Char} (inside : '?' ∉ path)
    (ended : atPathEnd tail = true) :
    readPath used (path ++ tail) =
      judged (pathOffence? used path tail.head?) (readingOf used path tail) := by
  induction path using Text.cut_induction '/' generalizing used with
  | whole piece whole =>
    by_cases empty : piece = []
    · subst empty
      rw [List.nil_append, readPath, if_pos ended]
      simp [pathOffence?, judged, readingOf, piecesOf_nil, firstOffence?]
    · have unslashed : piece.getLast? ≠ some '/' :=
        fun last => whole (List.mem_of_getLast? last)
      rw [pathOffence?, piecesOf_of_notMem empty whole, firstOffence?, afterPieces,
        if_neg unslashed]
      exact readPath_piece empty inside whole ended
  | cut piece rest whole ih =>
    have within : '?' ∉ piece ∧ '?' ∉ rest := by simpa using inside
    have more : atPathEnd (piece ++ '/' :: (rest ++ tail)) = false := by
      cases piece with
      | nil => rfl
      | cons first others => exact atPathEnd_append (List.cons_ne_nil _ _) within.1
    have read : readSegment used (piece ++ '/' :: (rest ++ tail)) =
        judged (pieceOffence? used (some '/') piece) (segmentOf piece, '/' :: (rest ++ tail)) :=
      readSegment_append (endsSegment_eq_false within.1 whole) (by rintro char ⟨⟩; rfl)
    rw [List.append_assoc, List.cons_append, pathOffence?_slash whole]
    cases offence : pieceOffence? used (some '/') piece with
    | some reason =>
      rw [offence] at read
      exact readPath_error more read
    | none =>
      rw [offence] at read
      rw [readPath_slash more read, Option.none_or, ← name?_segmentOf]
      by_cases empty : rest = []
      · subst empty
        rw [List.nil_append, if_pos ended, readingOf_slash_nil whole]
        rfl
      · rw [if_neg (by simp [atPathEnd_append empty within.2]), ih within.2,
          readingOf_slash whole empty]
        cases pathOffence? (used ++ (segmentOf piece).name?.toList) rest tail.head? <;> rfl

end Pieces

/-! ## Items of the search -/

section Items

variable {used : List String} {item after : List Char}

/-- What follows an item of the search is an ampersand, if anything. -/
def EndsItem (after : List Char) : Prop :=
  ∀ char, after.head? = some char → char = '&'

theorem shownInstead_append (whole : '&' ∉ item) (ends : EndsItem after) :
    shownInstead (item ++ after) = quotedInstead after.head? item := by
  cases item with
  | nil =>
    cases after with
    | nil => rfl
    | cons first rest =>
      obtain rfl := ends first rfl
      rfl
  | cons first others =>
    have unmarked : first ≠ '&' := fun same => whole (by simp [same])
    rw [List.cons_append, shownInstead, quotedInstead]
    by_cases alone : first = '/' ∨ first = '?'
    · rw [if_pos (by tauto), if_pos alone]
    · rw [if_neg (by tauto), if_neg alone]
      have stops : ∀ char, after.head? = some char →
          (char == '\x7b' || char == '&' || endsSegment char) = true := by
        intro char first
        simp [ends char first]
      rw [← List.cons_append, (Text.upTo_append_of_stop _ stops).1]
      apply Text.upTo_congr
      intro char member
      have kept : char ≠ '&' := ne_of_mem_of_not_mem member whole
      rw [Bool.eq_iff_iff]
      simp [endsSegment, kept]

/-- What stands in place of an opening brace is refused. -/
theorem readSearch_plain {text : List Char} (plain : text.head? ≠ some '\x7b') :
    readSearch used text =
      .error (.expectedSearchParameter (String.ofList (shownInstead text))) := by
  rw [readSearch]
  rintro rest rfl
  exact plain rfl

theorem readName_item {text : List Char} (ends : EndsItem after) :
    readName used (text ++ after) =
      judged (nameOffence? used after.head? text) (nameAt text, afterName text ++ after) := by
  apply readName_append
  intro char first
  simp [ends char first]

theorem readSearch_refused {reason : Reason} (whole : '&' ∉ item) (ends : EndsItem after)
    (offence : itemOffence? used after.head? item = some reason) :
    readSearch used (item ++ after) = .error reason := by
  by_cases plain : item.head? = some '\x7b'
  · obtain ⟨text, rfl⟩ := List.head?_eq_some_iff.mp plain
    rw [List.cons_append, readSearch_brace, readName_item ends]
    rw [itemOffence?] at offence
    cases named : nameOffence? used after.head? text with
    | some found =>
      rw [named] at offence
      exact congrArg Except.error (Option.some.inj offence)
    | none =>
      rw [named, Option.none_or] at offence
      obtain ⟨found, left, rfl⟩ := Option.map_eq_some_iff.mp offence
      obtain ⟨rest, onward⟩ := List.head?_eq_some_iff.mp left
      have unmarked : found ≠ '&' := by
        rintro rfl
        apply whole
        exact List.mem_cons_of_mem _ (mem_of_mem_afterName (by simp [onward]))
      simp [judged, onward]
  · have unopened : (item ++ after).head? ≠ some '\x7b' := by
      cases item with
      | nil => exact fun first => by simpa using ends _ first
      | cons first others => exact plain
    rw [readSearch_plain unopened, shownInstead_append whole ends]
    rw [itemOffence?_plain plain] at offence
    exact congrArg Except.error (Option.some.inj offence)

/-- An item without an offence is a name in braces. -/
theorem readName_of_item (ends : EndsItem after)
    (offence : itemOffence? used after.head? item = none) :
    ∃ text, item = '\x7b' :: text ∧ readName used (text ++ after) = .ok (nameAt text, after) := by
  by_cases plain : item.head? = some '\x7b'
  · obtain ⟨text, rfl⟩ := List.head?_eq_some_iff.mp plain
    rw [itemOffence?, Option.or_eq_none_iff, Option.map_eq_none_iff,
      List.head?_eq_none_iff] at offence
    exact ⟨text, rfl, by rw [readName_item ends, offence.1, offence.2]; rfl⟩
  · rw [itemOffence?_plain plain] at offence
    contradiction

/-- A search is read as its items are judged, from left to right. -/
theorem readSearch_eq (used : List String) (search : List Char) :
    readSearch used search =
      judged (searchOffence? used search) ((search.splitOn '&').filterMap nameIn) := by
  induction search using Text.cut_induction '&' generalizing used with
  | whole item whole =>
    have ends : EndsItem [] := by rintro char ⟨⟩
    rw [searchOffence?_of_notMem whole, List.splitOn_eq_singleton whole]
    cases offence : itemOffence? used none item with
    | some reason =>
      rw [← List.append_nil item]
      exact readSearch_refused whole ends offence
    | none =>
      obtain ⟨text, rfl, read⟩ := readName_of_item ends offence
      rw [List.append_nil] at read
      rw [readSearch_brace, read]
      rfl
  | cut item rest whole ih =>
    have ends : EndsItem ('&' :: rest) := by
      rintro char ⟨⟩
      rfl
    rw [searchOffence?_ampersand whole, List.splitOn_append_cons_self_of_not_mem whole]
    cases offence : itemOffence? used (some '&') item with
    | some reason => exact readSearch_refused whole ends offence
    | none =>
      obtain ⟨text, rfl, read⟩ := readName_of_item ends offence
      rw [List.cons_append, readSearch_brace, read]
      simp only [ih, nameIn, Option.toList_some, Option.none_or]
      cases searchOffence? (used ++ [nameAt text]) rest <;> rfl

end Items

/-! ## The whole text -/

theorem readTail_tailOf (used : List String) (text : List Char) :
    readTail used (tailOf text) =
      judged (if '?' ∈ text then searchOffence? used (Text.after '?' text) else none)
        (patternOf text).searchNames := by
  rw [tailOf, patternOf]
  split_ifs with marked
  · exact readSearch_eq used _
  · rfl

/-- A text is read as it is judged. -/
theorem read_eq (text : List Char) : read text = judged (offence? text) (patternOf text) := by
  have ended : atPathEnd (tailOf text) = true := by
    rw [tailOf]
    split_ifs <;> rfl
  have following : (tailOf text).head? = if '?' ∈ text then some '?' else none := by
    rw [tailOf]
    split_ifs <;> rfl
  have path : readPath [] (pathOf text ++ tailOf text) =
      judged (pathOffence? [] (pathOf text) (tailOf text).head?)
        (readingOf [] (pathOf text) (tailOf text)) :=
    readPath_append (questionMark_notMem_pathOf text) ended
  rw [pathOf_append_tailOf, following] at path
  simp only [read, bind, Except.bind, pure, Except.pure, throw, throwThe, MonadExceptOf.throw,
    offence?, beq_iff_eq, path]
  by_cases fragment : '#' ∈ text
  · rw [if_pos fragment, if_pos fragment]
    rfl
  rw [if_neg fragment, if_neg fragment]
  cases pathOffence? [] (pathOf text) (if '?' ∈ text then some '?' else none) with
  | some reason => rfl
  | none =>
    by_cases empty : piecesOf (pathOf text) = []
    · simp [judged, readingOf, empty]
    · simp only [judged, readingOf, Option.elim_none, List.nil_append, filterMap_nameIn,
        List.isEmpty_iff, List.map_eq_nil_iff, if_neg empty, readTail_tailOf, Option.none_or]
      generalize (if '?' ∈ text then searchOffence? ((piecesOf (pathOf text)).filterMap nameIn)
        (Text.after '?' text) else none) = offence
      cases offence <;> rfl

/-- A pattern text is refused exactly when it offends, and its first offence is the reason. -/
theorem parse_reports_first_offence (text : String) (error : PatternError) :
    parse text = .error error ↔
      error.pattern = text ∧ offence? text.toList = some error.reason := by
  obtain ⟨reason, pattern⟩ := error
  rw [parse, read_eq]
  cases offence? text.toList with
  | none => simp [judged, Except.mapError]
  | some found => simp [judged, Except.mapError, and_comm, eq_comm]

example : offence? "\x7bpage\x7d/a\x7bb&c".toList = some .ampersandInSegment := by decide

example : offence? "\x7bpage\x7d/\x7bpage\x7ds?\x7bpage\x7d".toList = some (.repeatedName "page") := by decide

/-- The message of a refused text says what its first offence violates; if it quotes something, that
stands in the text. -/
theorem message_of_refused {text : String} {error : PatternError}
    (refused : parse text = .error error) :
    ∃ reason, offence? text.toList = some reason ∧ reason.QuotesFrom text.toList ∧
      error.message = reason.found?.elim reason.requirement fun found =>
        reason.requirement ++ ", got " ++ Text.quoted found := by
  rw [parse, read_eq] at refused
  cases offence : offence? text.toList with
  | none => simp [offence, judged, Except.mapError] at refused
  | some reason =>
    obtain rfl : PatternError.mk reason text = error := by
      simpa [offence, judged, Except.mapError] using refused
    exact ⟨reason, rfl, quotesFrom_of_offence? offence, reason.message_eq⟩

end Pattern

end RouteTree
