/-! # Cutting a text at its first mark

An address is cut at `#` and `?`, a form field at `=`. The two parts are functions of their own, and
`before_append_after` puts them together again: only the mark itself is lost.
-/

namespace RouteTree.Text

/-- The characters that stand before the first `mark`, all of them when there is none. -/
def before (mark : Char) (text : List Char) : List Char :=
  text.takeWhile (· != mark)

/-- The characters that stand after the first `mark`, none of them when there is none. -/
def after (mark : Char) (text : List Char) : List Char :=
  (text.dropWhile (· != mark)).drop 1

/-- A text without the mark is its own first part. -/
theorem before_eq_self {mark : Char} {text : List Char} (absent : mark ∉ text) :
    before mark text = text := by
  induction text with
  | nil => rfl
  | cons head rest ih =>
    simp only [List.mem_cons, not_or] at absent
    simpa [before, Ne.symm absent.1] using ih absent.2

/-- A text without the mark has nothing after it. -/
theorem after_eq_nil {mark : Char} {text : List Char} (absent : mark ∉ text) :
    after mark text = [] := by
  induction text with
  | nil => rfl
  | cons head rest ih =>
    simp only [List.mem_cons, not_or] at absent
    simp only [after, List.dropWhile_cons, bne_iff_ne, ne_eq, Ne.symm absent.1, not_false_eq_true,
      if_true] at ih ⊢
    exact ih absent.2

/-- A text is cut behind a head that is free of the mark. -/
theorem before_append {mark : Char} {head : List Char} (absent : mark ∉ head)
    (rest : List Char) : before mark (head ++ rest) = head ++ before mark rest := by
  refine List.takeWhile_append_of_pos fun char member => ?_
  simpa using ne_of_mem_of_not_mem member absent

theorem after_append {mark : Char} {head : List Char} (absent : mark ∉ head)
    (rest : List Char) : after mark (head ++ rest) = after mark rest := by
  refine congrArg (List.drop 1) (List.dropWhile_append_of_pos fun char member => ?_)
  simpa using ne_of_mem_of_not_mem member absent

@[simp] theorem before_append_mark {mark : Char} {head : List Char} (absent : mark ∉ head)
    (rest : List Char) : before mark (head ++ mark :: rest) = head := by
  rw [before_append absent]
  simp [before]

@[simp] theorem after_append_mark {mark : Char} {head : List Char} (absent : mark ∉ head)
    (rest : List Char) : after mark (head ++ mark :: rest) = rest := by
  rw [after_append absent]
  simp [after]

theorem before_prefix (mark : Char) (text : List Char) : before mark text <+: text :=
  List.takeWhile_prefix _

/-- The two parts and the mark between them are the whole text. -/
theorem before_append_after {mark : Char} {text : List Char} (present : mark ∈ text) :
    before mark text ++ mark :: after mark text = text := by
  induction text with
  | nil => simp at present
  | cons head rest ih =>
    by_cases same : head = mark
    · simp [before, after, same]
    · have later : mark ∈ rest := by simpa [Ne.symm same] using present
      simpa [before, after, List.takeWhile_cons, List.dropWhile_cons, same] using ih later

theorem notMem_before (mark : Char) (text : List Char) : mark ∉ before mark text := by
  intro member
  have kept := List.all_takeWhile (p := (· != mark)) (l := text)
  simpa using List.all_eq_true.mp kept mark member

/-- What holds of a text without the mark, and of a text that goes on after one, holds of all. -/
theorem cut_induction (mark : Char) {motive : List Char → Prop}
    (whole : ∀ text, mark ∉ text → motive text)
    (cut : ∀ head rest, mark ∉ head → motive rest → motive (head ++ mark :: rest))
    (text : List Char) : motive text := by
  by_cases present : mark ∈ text
  · have joined := before_append_after present
    have shorter : (after mark text).length < text.length := by
      have length := congrArg List.length joined
      simp only [List.length_append, List.length_cons] at length
      omega
    rw [← joined]
    exact cut _ _ (notMem_before mark text) (cut_induction mark whole cut (after mark text))
  · exact whole text present
termination_by text.length

/-! ## Cutting where a character of some kind stands -/

/-- The characters before the first that stops the reading. -/
def upTo (stops : Char → Bool) (text : List Char) : List Char :=
  text.takeWhile fun char => !stops char

/-- The characters from the first on that stops the reading. -/
def onward (stops : Char → Bool) (text : List Char) : List Char :=
  text.dropWhile fun char => !stops char

variable {stops : Char → Bool}

@[simp] theorem upTo_append_onward (stops : Char → Bool) (text : List Char) :
    upTo stops text ++ onward stops text = text :=
  List.takeWhile_append_dropWhile

theorem stops_of_mem_upTo {text : List Char} {char : Char} (member : char ∈ upTo stops text) :
    stops char = false := by
  have kept := List.all_takeWhile (p := fun char => !stops char) (l := text)
  simpa using List.all_eq_true.mp kept char member

/-- The reading goes on only to a character that stops it. -/
theorem stops_head_onward {text : List Char} {char : Char}
    (first : (onward stops text).head? = some char) : stops char = true := by
  have stopped := List.head?_dropWhile_not (fun char => !stops char) text
  rw [onward] at first
  rw [first] at stopped
  simpa using stopped

/-- Only how the characters of the text are classed decides how far it is read. -/
theorem upTo_congr {others : Char → Bool} {text : List Char}
    (same : ∀ char ∈ text, stops char = others char) : upTo stops text = upTo others text := by
  induction text with
  | nil => rfl
  | cons char rest ih =>
    rw [List.forall_mem_cons] at same
    have onward := ih same.2
    rw [upTo, upTo] at onward ⊢
    rw [List.takeWhile_cons, List.takeWhile_cons, same.1, onward]

/-- Characters that do not stop the reading are read up to the end or to one that does. -/
theorem upTo_append {head : List Char} (inside : ∀ char ∈ head, stops char = false)
    (rest : List Char) (stop : ∀ char, rest.head? = some char → stops char = true) :
    upTo stops (head ++ rest) = head ∧ onward stops (head ++ rest) = rest := by
  have reads : ∀ char ∈ head, (!stops char) = true := by simpa using inside
  rw [upTo, onward, List.takeWhile_append_of_pos reads, List.dropWhile_append_of_pos reads]
  cases rest with
  | nil => simp
  | cons first others => simp [stop first rfl]

/-- A text is read in front of one that stops the reading as it is read alone. -/
theorem upTo_append_of_stop (text : List Char) {rest : List Char}
    (stop : ∀ char, rest.head? = some char → stops char = true) :
    upTo stops (text ++ rest) = upTo stops text ∧
      onward stops (text ++ rest) = onward stops text ++ rest := by
  induction text with
  | nil => exact upTo_append (List.forall_mem_nil _) rest stop
  | cons char others ih =>
    cases here : stops char with
    | true => simp [upTo, onward, here]
    | false => simpa [upTo, onward, here] using ih

/-! ## Joining -/

/-- A character that does not join the parts stands in a joined text as it does in them. -/
theorem mem_intercalate_iff {separator : List Char} {char : Char} (absent : char ∉ separator)
    {parts : List (List Char)} :
    char ∈ separator.intercalate parts ↔ ∃ part ∈ parts, char ∈ part := by
  induction parts with
  | nil => simp
  | cons part rest ih =>
    cases rest with
    | nil => simp
    | cons next others =>
      rw [List.intercalate_cons_cons, List.mem_append, List.mem_append, ih]
      simp [absent]

end RouteTree.Text
