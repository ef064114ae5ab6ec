import RouteTree.Pattern.Basic
import RouteTree.Pattern.Error
import RouteTree.Text.Cut
import Mathlib.Data.List.Infix
import Mathlib.Tactic.ByContra
import Mathlib.Tactic.SplitIfs

/-! # Judging a pattern text

A pattern text can be judged without a scanner: its path is cut at the slashes, its search at the
ampersands, and the pieces are judged one after another, each by itself, by the character that
follows it and by the names of those before it. `offence?` is this judgement, and `patternOf` is
what the pieces of a text without an offence stand for. Whatever an offence quotes stands in the
text.
-/

namespace RouteTree

namespace Pattern

/-! ## Pieces and their offences -/

/-- The path of a pattern text, without the slash that may lead it. -/
def pathOf (text : List Char) : List Char :=
  let path := Text.before '?' text
  if path.head? = some '/' then path.drop 1 else path

/-- The pieces of a path between its slashes; after a final slash there is none. -/
def piecesOf (path : List Char) : List (List Char) :=
  let pieces := path.splitOn '/'
  if pieces.getLast? = some [] then pieces.dropLast else pieces

/-- The characters at which a name stops. The last two stand in items of the search only: a piece of
the path holds neither. -/
def nameStops : List Char :=
  ['\x7d', '\x7b', '&', ':', '/', '?']

/-- The name after an opening brace. -/
def nameAt (text : List Char) : String :=
  String.ofList (text.takeWhile (· ∉ nameStops))

/-- What is left after a name and the character at which it stops. -/
def afterName (text : List Char) : List Char :=
  (text.dropWhile (· ∉ nameStops)).drop 1

/-- What is wrong with the name after an opening brace, in a piece that `following` follows. -/
def nameOffence? (used : List String) (following : Option Char) (text : List Char) :
    Option Reason :=
  let stop := (text.find? (· ∈ nameStops)).or following
  if stop ∈ [some '\x7b', some '&', some ':'] then some .forbiddenInName
  else if stop ≠ some '\x7d' then some (.unclosedName stop)
  else if nameAt text = "" then some .unnamedParameter
  else if nameAt text ∈ used then some (.repeatedName (nameAt text))
  else none

/-- What is wrong with a piece of the path. -/
def pieceOffence? (used : List String) (following : Option Char) : List Char → Option Reason
  | [] => some .emptySegment
  | '\x7b' :: text =>
    (nameOffence? used following text).or ((afterName text).head?.map .textAfterParameter)
  | piece =>
    if '&' ∈ piece then some .ampersandInSegment
    else if '\x7b' ∈ piece ∨ '\x7d' ∈ piece then some .braceInSegment
    else none

/-- What is quoted of an item of the search that does not start with a brace. -/
def quotedInstead (following : Option Char) : List Char → List Char
  | [] => following.toList
  | first :: item =>
    if first = '/' ∨ first = '?' then [first]
    else Text.upTo (· ∈ ['\x7b', '/', '?']) (first :: item)

/-- What is wrong with an item of the search. -/
def itemOffence? (used : List String) (following : Option Char) : List Char → Option Reason
  | '\x7b' :: text =>
    (nameOffence? used following text).or ((afterName text).head?.map .textAfterSearchParameter)
  | item => some (.expectedSearchParameter (String.ofList (quotedInstead following item)))

/-- The name of a piece or an item that starts with a brace. -/
def nameIn : List Char → Option String
  | '\x7b' :: text => some (nameAt text)
  | _ => none

/-- The first offence among pieces: `mark` follows each but the last, which `last` follows, and the
names before a piece are used when it is judged. -/
def firstOffence? (judge : List String → Option Char → List Char → Option Reason) (mark : Char)
    (last : Option Char) : List String → List (List Char) → Option Reason
  | _, [] => none
  | used, [piece] => judge used last piece
  | used, piece :: next :: rest =>
    (judge used (some mark) piece).or
      (firstOffence? judge mark last (used ++ (nameIn piece).toList) (next :: rest))

/-- What follows the last piece of a path. -/
def afterPieces (path : List Char) (following : Option Char) : Option Char :=
  if path.getLast? = some '/' then some '/' else following

/-- The first offence of a path that `following` follows. -/
def pathOffence? (used : List String) (path : List Char) (following : Option Char) :
    Option Reason :=
  firstOffence? pieceOffence? '/' (afterPieces path following) used (piecesOf path)

/-- The first offence of a search, at whose end nothing follows. -/
def searchOffence? (used : List String) (search : List Char) : Option Reason :=
  firstOffence? itemOffence? '&' none used (search.splitOn '&')

/-- The first offence of a pattern text: a fragment mark anywhere, then that of the path, then a
path without pieces, then that of the search. -/
def offence? (text : List Char) : Option Reason :=
  let path := pathOf text
  if '#' ∈ text then some .fragmentMark
  else
    (pathOffence? [] path (if '?' ∈ text then some '?' else none)).or <|
      if piecesOf path = [] then some .noSegments
      else if '?' ∈ text then
        searchOffence? ((piecesOf path).filterMap nameIn) (Text.after '?' text)
      else none

/-! ## What pieces stand for -/

/-- The segment that a piece stands for. -/
def segmentOf (piece : List Char) : Segment :=
  (nameIn piece).elim (.literal (String.ofList piece)) .parameter

theorem name?_segmentOf (piece : List Char) : (segmentOf piece).name? = nameIn piece := by
  rw [segmentOf]
  cases nameIn piece <;> rfl

/-- The names in the pieces of a path are those of the segments that the pieces stand for. -/
theorem filterMap_nameIn (pieces : List (List Char)) :
    (pieces.map segmentOf).filterMap Segment.name? = pieces.filterMap nameIn := by
  rw [List.filterMap_map]
  exact List.filterMap_congr fun piece _ => name?_segmentOf piece

/-- The pattern that is read from a text without an offence. -/
def patternOf (text : List Char) : Pattern where
  segments := (piecesOf (pathOf text)).map segmentOf
  parameters := (piecesOf (pathOf text)).filterMap nameIn
  searchNames :=
    if '?' ∈ text then ((Text.after '?' text).splitOn '&').filterMap nameIn else []
  leadingSlash := text.head? == some '/'
  trailingSlash := (pathOf text).getLast? == some '/'

/-! ## Single pieces -/

section

variable {used : List String} {text piece item : List Char}

theorem mem_of_mem_afterName {char : Char} (member : char ∈ afterName text) : char ∈ text :=
  ((List.drop_sublist 1 _).trans (List.dropWhile_sublist _)).subset member

/-- A piece that starts with no brace is a literal. -/
theorem segmentOf_plain (plain : piece.head? ≠ some '\x7b') :
    segmentOf piece = .literal (String.ofList piece) := by
  rw [segmentOf, nameIn]
  · rfl
  · rintro text rfl
    exact plain rfl

theorem pieceOffence?_plain {following : Option Char} (present : piece ≠ [])
    (plain : piece.head? ≠ some '\x7b') :
    pieceOffence? used following piece =
      if '&' ∈ piece then some .ampersandInSegment
      else if '\x7b' ∈ piece ∨ '\x7d' ∈ piece then some .braceInSegment
      else none := by
  rw [pieceOffence?]
  · exact present
  · rintro text rfl
    exact plain rfl

theorem itemOffence?_plain {following : Option Char} (plain : item.head? ≠ some '\x7b') :
    itemOffence? used following item =
      some (.expectedSearchParameter (String.ofList (quotedInstead following item))) := by
  rw [itemOffence?]
  rintro text rfl
  exact plain rfl

/-! ## Cutting at the slashes -/

theorem piecesOf_nil : piecesOf [] = [] := rfl

theorem piecesOf_of_notMem (present : piece ≠ []) (whole : '/' ∉ piece) :
    piecesOf piece = [piece] := by
  simp [piecesOf, List.splitOn_eq_singleton whole, present]

theorem piecesOf_slash (whole : '/' ∉ piece) (rest : List Char) :
    piecesOf (piece ++ '/' :: rest) = piece :: piecesOf rest := by
  have cut := List.splitOn_append_cons_self_of_not_mem whole rest
  have present := List.splitOn_ne_nil '/' rest
  simp only [piecesOf, cut, List.getLast?_cons, List.dropLast_cons_of_ne_nil present]
  cases last : (rest.splitOn '/').getLast? with
  | none => exact (present (List.getLast?_eq_none_iff.mp last)).elim
  | some final =>
    simp only [Option.getD_some]
    split_ifs <;> rfl

theorem piecesOf_eq_nil_iff {path : List Char} : piecesOf path = [] ↔ path = [] := by
  refine ⟨fun none => ?_, by rintro rfl; rfl⟩
  by_contra present
  by_cases slash : '/' ∈ path
  · rw [← Text.before_append_after slash, piecesOf_slash (Text.notMem_before '/' path)] at none
    contradiction
  · rw [piecesOf_of_notMem present slash] at none
    contradiction

/-- A piece that others follow is judged before them. -/
theorem firstOffence?_cons {judge : List String → Option Char → List Char → Option Reason}
    {mark : Char} {last : Option Char} {others : List (List Char)} (more : others ≠ []) :
    firstOffence? judge mark last used (piece :: others) =
      (judge used (some mark) piece).or
        (firstOffence? judge mark last (used ++ (nameIn piece).toList) others) := by
  obtain ⟨next, rest, rfl⟩ := List.exists_cons_of_ne_nil more
  rfl

theorem pathOffence?_slash (whole : '/' ∉ piece) (rest : List Char) (following : Option Char) :
    pathOffence? used (piece ++ '/' :: rest) following =
      (pieceOffence? used (some '/') piece).or
        (pathOffence? (used ++ (nameIn piece).toList) rest following) := by
  rw [pathOffence?, pathOffence?, piecesOf_slash whole]
  by_cases empty : rest = []
  · subst empty
    simp [piecesOf_nil, firstOffence?, afterPieces]
  · rw [firstOffence?_cons (mt piecesOf_eq_nil_iff.mp empty), afterPieces, afterPieces,
      List.getLast?_append_cons, List.getLast?_cons_of_ne_nil empty]

/-! ## Cutting at the ampersands -/

theorem searchOffence?_of_notMem (whole : '&' ∉ item) :
    searchOffence? used item = itemOffence? used none item := by
  rw [searchOffence?, List.splitOn_eq_singleton whole, firstOffence?]

theorem searchOffence?_ampersand (whole : '&' ∉ item) (rest : List Char) :
    searchOffence? used (item ++ '&' :: rest) =
      (itemOffence? used (some '&') item).or
        (searchOffence? (used ++ (nameIn item).toList) rest) := by
  rw [searchOffence?, List.splitOn_append_cons_self_of_not_mem whole,
    firstOffence?_cons (List.splitOn_ne_nil _ _), searchOffence?]

end

/-! ## The path and what follows it -/

/-- The path ends before the question mark. -/
theorem questionMark_notMem_pathOf (text : List Char) : '?' ∉ pathOf text := by
  have before := Text.notMem_before '?' text
  simp only [pathOf]
  split_ifs
  · exact fun member => before (List.mem_of_mem_drop member)
  · exact before

/-- What follows the path of a pattern text: the question mark and the search, if there is one. -/
def tailOf (text : List Char) : List Char :=
  if '?' ∈ text then '?' :: Text.after '?' text else []

theorem pathOf_append_tailOf (text : List Char) :
    pathOf text ++ tailOf text = if text.head? = some '/' then text.drop 1 else text := by
  have whole : Text.before '?' text ++ tailOf text = text := by
    rw [tailOf]
    split_ifs with marked
    · exact Text.before_append_after marked
    · rw [List.append_nil, Text.before_eq_self marked]
  have tailed : (tailOf text).head? ≠ some '/' := by
    rw [tailOf]
    split_ifs <;> simp
  simp only [pathOf]
  generalize tailOf text = tail at whole tailed ⊢
  generalize Text.before '?' text = path at whole ⊢
  subst whole
  cases path with
  | nil => simp [tailed]
  | cons first rest => by_cases slash : first = '/' <;> simp [slash]

/-! ## What a reason quotes -/

/-- Whatever a reason quotes stands in the text. -/
def Reason.QuotesFrom (reason : Reason) (text : List Char) : Prop :=
  ∀ found ∈ reason.found?, found.toList <:+: text

theorem Reason.QuotesFrom.mono {reason : Reason} {part text : List Char}
    (quotes : reason.QuotesFrom part) (inside : part <:+: text) : reason.QuotesFrom text :=
  fun found quoted => (quotes found quoted).trans inside

theorem Reason.quotesFrom_of_none {reason : Reason} (nothing : reason.found? = none)
    (text : List Char) : reason.QuotesFrom text := by
  simp [QuotesFrom, nothing]

section

variable {used : List String} {following : Option Char} {text piece item : List Char}
variable {reason : Reason}

theorem quotesFrom_of_nameOffence? (offence : nameOffence? used following text = some reason) :
    reason.QuotesFrom (text ++ following.toList) := by
  simp only [nameOffence?] at offence
  split_ifs at offence
  · cases offence
    exact Reason.quotesFrom_of_none rfl _
  · cases offence
    rintro found ⟨⟩
    rw [String.toList_ofList]
    cases stopped : text.find? (· ∈ nameStops) with
    | none => exact (List.suffix_append text following.toList).isInfix
    | some stop =>
      apply (List.singleton_infix_iff _ _).mpr
      exact List.mem_append_left _ (List.mem_of_find?_eq_some stopped)
  · cases offence
    exact Reason.quotesFrom_of_none rfl _
  · cases offence
    rintro found ⟨⟩
    rw [nameAt, String.toList_ofList]
    exact ((List.takeWhile_prefix _).trans (List.prefix_append _ _)).isInfix

/-- A parameter offends by its name or by the character after its closing brace. -/
theorem quotesFrom_of_parameter {tooLong : Char → Reason}
    (quotes : ∀ char, (tooLong char).found? = some (String.singleton char))
    (offence : (nameOffence? used following text).or
      ((afterName text).head?.map tooLong) = some reason) :
    reason.QuotesFrom ('\x7b' :: text ++ following.toList) := by
  rcases Option.or_eq_some_iff.mp offence with named | ⟨_, after⟩
  · exact (quotesFrom_of_nameOffence? named).mono (List.suffix_cons _ _).isInfix
  · obtain ⟨char, left, rfl⟩ := Option.map_eq_some_iff.mp after
    intro found quoted
    rw [quotes] at quoted
    cases quoted
    rw [String.toList_singleton, List.singleton_infix_iff]
    apply List.mem_append_left
    exact List.mem_cons_of_mem _ (mem_of_mem_afterName (List.mem_of_head? left))

theorem quotesFrom_of_pieceOffence? (offence : pieceOffence? used following piece = some reason) :
    reason.QuotesFrom (piece ++ following.toList) := by
  unfold pieceOffence? at offence
  split at offence
  · cases offence
    exact Reason.quotesFrom_of_none rfl _
  · exact quotesFrom_of_parameter (fun _ => rfl) offence
  · split_ifs at offence
    · cases offence
      exact Reason.quotesFrom_of_none rfl _
    · cases offence
      exact Reason.quotesFrom_of_none rfl _

theorem quotedInstead_infix (following : Option Char) (item : List Char) :
    quotedInstead following item <:+: item ++ following.toList := by
  cases item with
  | nil => exact List.infix_rfl
  | cons first rest =>
    rw [quotedInstead]
    split_ifs
    · apply (List.singleton_infix_iff _ _).mpr
      exact List.mem_cons_self
    · exact ((List.takeWhile_prefix _).trans (List.prefix_append _ _)).isInfix

theorem quotesFrom_of_itemOffence? (offence : itemOffence? used following item = some reason) :
    reason.QuotesFrom (item ++ following.toList) := by
  unfold itemOffence? at offence
  split at offence
  · exact quotesFrom_of_parameter (fun _ => rfl) offence
  · cases offence
    rintro found ⟨⟩
    rw [String.toList_ofList]
    exact quotedInstead_infix following _

/-- Of a path, what is quoted stands in one piece or is the mark after it. -/
theorem quotesFrom_of_pathOffence? {path : List Char}
    (offence : pathOffence? used path following = some reason) :
    reason.QuotesFrom (path ++ following.toList) := by
  induction path using Text.cut_induction '/' generalizing used with
  | whole piece whole =>
    by_cases empty : piece = []
    · subst empty
      simp [pathOffence?, piecesOf_nil, firstOffence?] at offence
    · have unslashed : piece.getLast? ≠ some '/' := fun last => whole (List.mem_of_getLast? last)
      rw [pathOffence?, piecesOf_of_notMem empty whole, firstOffence?, afterPieces,
        if_neg unslashed] at offence
      exact quotesFrom_of_pieceOffence? offence
  | cut piece rest whole ih =>
    rw [pathOffence?_slash whole, Option.or_eq_some_iff] at offence
    rcases offence with first | ⟨_, later⟩
    · refine (quotesFrom_of_pieceOffence? first).mono ⟨[], rest ++ following.toList, ?_⟩
      simp
    · refine (ih later).mono ⟨piece ++ ['/'], [], ?_⟩
      simp

theorem quotesFrom_of_searchOffence? {search : List Char}
    (offence : searchOffence? used search = some reason) : reason.QuotesFrom search := by
  induction search using Text.cut_induction '&' generalizing used with
  | whole item whole =>
    rw [searchOffence?_of_notMem whole] at offence
    simpa using quotesFrom_of_itemOffence? offence
  | cut item rest whole ih =>
    rw [searchOffence?_ampersand whole, Option.or_eq_some_iff] at offence
    rcases offence with first | ⟨_, later⟩
    · refine (quotesFrom_of_itemOffence? first).mono ⟨[], rest, ?_⟩
      simp
    · refine (ih later).mono ⟨item ++ ['&'], [], ?_⟩
      simp

/-- What the first offence of a pattern text quotes stands in that text. -/
theorem quotesFrom_of_offence? (offence : offence? text = some reason) :
    reason.QuotesFrom text := by
  have inside : pathOf text ++ tailOf text <:+: text := by
    rw [pathOf_append_tailOf]
    split_ifs
    · exact (List.drop_suffix 1 text).isInfix
    · exact List.infix_rfl
  simp only [offence?] at offence
  by_cases fragment : '#' ∈ text
  · rw [if_pos fragment] at offence
    cases offence
    exact Reason.quotesFrom_of_none rfl _
  rw [if_neg fragment, Option.or_eq_some_iff] at offence
  rcases offence with path | ⟨_, rest⟩
  · refine (quotesFrom_of_pathOffence? path).mono (List.IsInfix.trans ?_ inside)
    rw [tailOf]
    split_ifs
    · exact ⟨[], Text.after '?' text, by simp⟩
    · exact List.infix_rfl
  · split_ifs at rest with empty marked
    · cases rest
      exact Reason.quotesFrom_of_none rfl _
    · refine (quotesFrom_of_searchOffence? rest).mono ?_
      exact ⟨Text.before '?' text ++ ['?'], [], by simpa using Text.before_append_after marked⟩

end

end Pattern

end RouteTree
