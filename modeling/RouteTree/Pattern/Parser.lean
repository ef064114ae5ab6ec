import RouteTree.Pattern.Basic
import RouteTree.Pattern.Error
import RouteTree.Text.Cut

/-! # Reading a pattern

A pattern text is read from left to right, and the first place where it cannot go on decides the
answer. Every reader is given the text from its position on and hands back what it leaves unread.
The names read so far are carried along, since they must differ across path and search.
-/

namespace RouteTree.Pattern

/-- The characters that no name can hold, besides those that end a segment. -/
def isForbiddenInName (char : Char) : Bool :=
  char == '\x7b' || char == '&' || char == ':'

/-- The characters at which the reading of a segment stops. -/
def endsSegment (char : Char) : Bool :=
  char == '/' || char == '?'

/-- The characters at which the reading of a name stops. -/
def endsName (char : Char) : Bool :=
  char == '\x7d' || endsSegment char || isForbiddenInName char

/-- Read the name after an opening brace, and its closing brace. -/
def readName (used : List String) (text : List Char) : Except Reason (String × List Char) :=
  let name := String.ofList (Text.upTo endsName text)
  match Text.onward endsName text with
  | [] => .error (.unclosedName none)
  | stop :: rest =>
    if isForbiddenInName stop then .error .forbiddenInName
    else if stop ≠ '\x7d' then .error (.unclosedName (some stop))
    else if name = "" then .error .unnamedParameter
    else if name ∈ used then .error (.repeatedName name)
    else .ok (name, rest)

/-- What is read is a name that is not taken, followed by its closing brace. -/
theorem readName_eq_ok_iff {used : List String} {text rest : List Char} {name : String} :
    readName used text = .ok (name, rest) ↔
      text = name.toList ++ '\x7d' :: rest ∧ name ≠ "" ∧
        (∀ char ∈ name.toList, endsName char = false) ∧ name ∉ used := by
  constructor
  · intro success
    have whole := Text.upTo_append_onward endsName text
    simp only [readName] at success
    split at success
    · contradiction
    · next stop others found =>
      split at success
      · contradiction
      split at success
      · contradiction
      split at success
      · contradiction
      split at success
      · contradiction
      next closing named fresh =>
        obtain ⟨rfl, rfl⟩ := Prod.mk.inj (Except.ok.inj success)
        rw [Decidable.not_not.mp closing] at found
        rw [found] at whole
        refine ⟨by simpa using whole.symm, named, fun char member => ?_, fresh⟩
        exact Text.stops_of_mem_upTo (by simpa using member)
  · rintro ⟨rfl, named, inside, fresh⟩
    obtain ⟨before, onward⟩ := Text.upTo_append inside ('\x7d' :: rest)
      fun char closing => by obtain rfl := Option.some.inj closing; rfl
    have allowed : isForbiddenInName '\x7d' = false := rfl
    simp [readName, before, onward, allowed, named, fresh]

/-- A name is read together with a brace at least. -/
theorem readName_length {used : List String} {text rest : List Char} {name : String}
    (success : readName used text = .ok (name, rest)) : rest.length < text.length := by
  rw [(readName_eq_ok_iff.mp success).1, List.length_append, List.length_cons]
  omega

/-- Read a parameter after its opening brace. -/
def readParameter (used : List String) (text : List Char) : Except Reason (Segment × List Char) :=
  match readName used text with
  | .error reason => .error reason
  | .ok (name, []) => .ok (.parameter name, [])
  | .ok (name, found :: rest) =>
    if endsSegment found then .ok (.parameter name, found :: rest)
    else .error (.textAfterParameter found)

/-- Read a literal. -/
def readLiteral (text : List Char) : Except Reason (Segment × List Char) :=
  let literal := Text.upTo endsSegment text
  if literal = [] then .error .emptySegment
  else if '&' ∈ literal then .error .ampersandInSegment
  else if '\x7b' ∈ literal ∨ '\x7d' ∈ literal then .error .braceInSegment
  else .ok (.literal (String.ofList literal), Text.onward endsSegment text)

/-- Read the segment at the start of a text. -/
def readSegment (used : List String) : List Char → Except Reason (Segment × List Char)
  | '\x7b' :: text => readParameter used text
  | text => readLiteral text

/-- A segment that can be read after the given names: a literal or a name that is new. -/
def IsReadable (used : List String) : Segment → Prop
  | .literal text =>
    text ≠ "" ∧ ∀ char ∈ text.toList, char ∉ ['/', '?', '&', '\x7b', '\x7d']
  | .parameter name =>
    name ≠ "" ∧ (∀ char ∈ name.toList, endsName char = false) ∧ name ∉ used

/-- Whether a segment can end before a text. -/
def StopsSegment (rest : List Char) : Prop :=
  ∀ char, rest.head? = some char → endsSegment char = true

theorem readLiteral_eq_ok_iff (used : List String) {text rest : List Char} {segment : Segment} :
    readLiteral text = .ok (segment, rest) ↔ ∃ literal, segment = .literal literal ∧
      text = literal.toList ++ rest ∧ IsReadable used (.literal literal) ∧ StopsSegment rest := by
  constructor
  · intro success
    simp only [readLiteral] at success
    split at success
    · contradiction
    split at success
    · contradiction
    split at success
    · contradiction
    next present noAmpersand noBrace =>
      obtain ⟨rfl, rfl⟩ := Prod.mk.inj (Except.ok.inj success)
      simp only [not_or] at noBrace
      refine ⟨_, rfl, by simp, ⟨by simpa using present, fun char member => ?_⟩,
        fun char first => Text.stops_head_onward first⟩
      rw [String.toList_ofList] at member
      have continues := Text.stops_of_mem_upTo member
      simp only [endsSegment, Bool.or_eq_false_iff, beq_eq_false_iff_ne] at continues
      simp only [List.mem_cons, List.not_mem_nil, or_false, not_or]
      refine ⟨continues.1, continues.2, ?_, ?_, ?_⟩
      · rintro rfl; exact noAmpersand member
      · rintro rfl; exact noBrace.1 member
      · rintro rfl; exact noBrace.2 member
  · rintro ⟨literal, rfl, rfl, ⟨present, allowed⟩, stop⟩
    have inside : ∀ char ∈ literal.toList, endsSegment char = false := by
      intro char member
      have others := allowed char member
      simp only [List.mem_cons, List.not_mem_nil, or_false, not_or] at others
      simp [endsSegment, others]
    obtain ⟨before, onward⟩ := Text.upTo_append inside rest stop
    have absent : '&' ∉ literal.toList ∧ '\x7b' ∉ literal.toList ∧ '\x7d' ∉ literal.toList := by
      refine ⟨?_, ?_, ?_⟩ <;> intro member <;> simpa using allowed _ member
    simp [readLiteral, before, onward, present, absent]

theorem readParameter_eq_ok_iff {used : List String} {text rest : List Char} {segment : Segment} :
    readParameter used text = .ok (segment, rest) ↔ ∃ name, segment = .parameter name ∧
      text = name.toList ++ '\x7d' :: rest ∧ IsReadable used (.parameter name) ∧
        StopsSegment rest := by
  constructor
  · intro success
    simp only [readParameter] at success
    split at success
    · contradiction
    · next name read =>
      obtain ⟨rfl, rfl⟩ := Prod.mk.inj (Except.ok.inj success)
      obtain ⟨whole, proper⟩ := readName_eq_ok_iff.mp read
      exact ⟨name, rfl, whole, proper, by simp [StopsSegment]⟩
    · next name found others read =>
      split at success
      · next stop =>
        obtain ⟨rfl, rfl⟩ := Prod.mk.inj (Except.ok.inj success)
        obtain ⟨whole, proper⟩ := readName_eq_ok_iff.mp read
        refine ⟨name, rfl, whole, proper, ?_⟩
        rintro char ⟨⟩
        exact stop
      · contradiction
  · rintro ⟨name, rfl, whole, proper, stop⟩
    have read := readName_eq_ok_iff.mpr ⟨whole, proper⟩
    cases rest with
    | nil => simp [readParameter, read]
    | cons found others => simp [readParameter, read, stop found rfl]

/-- What is read is a segment that can stand there, up to a character that ends it. -/
theorem readSegment_eq_ok_iff {used : List String} {text rest : List Char} {segment : Segment} :
    readSegment used text = .ok (segment, rest) ↔
      text = segment.text.toList ++ rest ∧ IsReadable used segment ∧ StopsSegment rest := by
  have braced (name : String) : (Segment.parameter name).text.toList ++ rest =
      '\x7b' :: (name.toList ++ '\x7d' :: rest) := by
    simp [Segment.text, Segment.braced]
  constructor
  · intro success
    simp only [readSegment] at success
    split at success
    · obtain ⟨name, rfl, rfl, proper, stop⟩ := readParameter_eq_ok_iff.mp success
      exact ⟨(braced name).symm, proper, stop⟩
    · obtain ⟨literal, rfl, rfl, proper, stop⟩ := (readLiteral_eq_ok_iff used).mp success
      exact ⟨rfl, proper, stop⟩
  · rintro ⟨rfl, proper, stop⟩
    cases segment with
    | parameter name =>
      rw [braced]
      exact readParameter_eq_ok_iff.mpr ⟨name, rfl, rfl, proper, stop⟩
    | literal literal =>
      have read := (readLiteral_eq_ok_iff used).mpr ⟨literal, rfl, rfl, proper, stop⟩
      simp only [Segment.text]
      cases whole : literal.toList with
      | nil => exact (proper.1 (by simpa using whole)).elim
      | cons first others =>
        rw [whole] at read
        have plain : first ≠ '\x7b' := by
          rintro rfl
          simpa using proper.2 '\x7b' (by simp [whole])
        rw [List.cons_append] at read ⊢
        rw [readSegment]
        · exact read
        · rintro text ⟨⟩
          exact plain rfl

theorem readSegment_length {used : List String} {text rest : List Char} {segment : Segment}
    (success : readSegment used text = .ok (segment, rest)) : rest.length ≤ text.length := by
  rw [(readSegment_eq_ok_iff.mp success).1, List.length_append]
  omega

/-- What is read of a path, and the text after it. -/
structure PathReading where
  segments : List Segment
  names : List String
  trailingSlash : Bool
  rest : List Char

/-- A reading after one more segment. -/
def PathReading.after (segment : Segment) (path : PathReading) : PathReading :=
  { path with segments := segment :: path.segments }

/-- Whether nothing of the path is left. -/
def atPathEnd : List Char → Bool
  | [] => true
  | char :: _ => char == '?'

/-- Read the segments of a path and the slashes between them. A slash at the end of the path is the
trailing one. -/
def readPath (used : List String) (text : List Char) : Except Reason PathReading :=
  if atPathEnd text then .ok ⟨[], used, false, text⟩
  else
    match _read : readSegment used text with
    | .error reason => .error reason
    | .ok (segment, '/' :: rest) =>
      if atPathEnd rest then .ok ⟨[segment], used ++ segment.name?.toList, true, rest⟩
      else (readPath (used ++ segment.name?.toList) rest).map (.after segment)
    | .ok (segment, rest) => .ok ⟨[segment], used ++ segment.name?.toList, false, rest⟩
termination_by text.length
decreasing_by
  have shorter := readSegment_length _read
  simp only [List.length_cons] at shorter ⊢
  omega

/-- What is shown in place of an opening brace that the search lacks. -/
def shownInstead : List Char → List Char
  | [] => []
  | first :: text =>
    if first = '/' ∨ first = '?' ∨ first = '&' then [first]
    else Text.upTo (fun char => char == '\x7b' || char == '&' || endsSegment char) (first :: text)

/-- Read the names of a search and the ampersands between them. -/
def readSearch (used : List String) : List Char → Except Reason (List String)
  | '\x7b' :: text =>
    match _read : readName used text with
    | .error reason => .error reason
    | .ok (name, []) => .ok [name]
    | .ok (name, '&' :: rest) => (readSearch (used ++ [name]) rest).map (name :: ·)
    | .ok (_, found :: _) => .error (.textAfterSearchParameter found)
  | text => .error (.expectedSearchParameter (String.ofList (shownInstead text)))
termination_by text => text.length
decreasing_by
  have shorter := readName_length _read
  simp only [List.length_cons] at shorter ⊢
  omega

/-- Read what follows the path: nothing, or a question mark and a search. -/
def readTail (used : List String) : List Char → Except Reason (List String)
  | '?' :: search => readSearch used search
  | _ => .ok []

/-- Read a pattern text. -/
def read (text : List Char) : Except Reason Pattern := do
  if '#' ∈ text then throw .fragmentMark
  let leadingSlash := text.head? == some '/'
  let path ← readPath [] (if leadingSlash then text.drop 1 else text)
  if path.segments.isEmpty then throw .noSegments
  let searchNames ← readTail path.names path.rest
  return {
    segments := path.segments
    parameters := path.names
    searchNames
    leadingSlash
    trailingSlash := path.trailingSlash }

/-- Read a pattern from its written form. -/
def parse (text : String) : Except PatternError Pattern :=
  (read text.toList).mapError fun reason => ⟨reason, text⟩

end RouteTree.Pattern
