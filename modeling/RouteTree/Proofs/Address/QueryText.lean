import RouteTree.Proofs.Query.Multimap
import RouteTree.Proofs.Query.Undeclared

/-! # The query text of an address

The query text of an address stands behind its first question mark. It is handed on without this
mark, to a reader that takes a text with a question mark before it as well as one without. A query
text that starts with a question mark of its own therefore loses it: the name of its first pair is
read without the mark, and a pair that is only the mark is not read at all. Question marks further
on are characters of their names and values.
-/

namespace RouteTree

namespace Text.Form

theorem decodeText_mark_cons (written : List Char) :
    decodeText ('?' :: written) = "?" ++ decodeText written := by
  have plain : plusToBlank '?' = '?' := rfl
  rw [decodeText, decodeText, List.map_cons, plain, Percent.decode_cons (by decide)]
  apply String.toList_inj.mp
  simp

/-- The mark belongs to the name of a field. -/
theorem decodeField_mark_cons (written : List Char) :
    decodeField ('?' :: written) = ("?" ++ (decodeField written).1, (decodeField written).2) := by
  have name : before '=' ('?' :: written) = '?' :: before '=' written := rfl
  have value : after '=' ('?' :: written) = after '=' written := rfl
  rw [decodeField, name, value, decodeText_mark_cons]
  rfl

/-- Fields before and after the mark in front of the first name is dropped. A field that is only the
mark is dropped with it. -/
inductive DropsMark : List (String × String) → List (String × String) → Prop
  | renamed (name value : String) (later : List (String × String)) :
      DropsMark (("?" ++ name, value) :: later) ((name, value) :: later)
  | removed (later : List (String × String)) : DropsMark (("?", "") :: later) later

/-- A text is read without the mark before it as the fields from which the mark is dropped. -/
theorem dropsMark_decode (text : List Char) : DropsMark (decode ('?' :: text)) (decode text) := by
  obtain ⟨first, others, pieces⟩ := List.exists_cons_of_ne_nil (List.splitOn_ne_nil '&' text)
  have marked : ('?' :: text).splitOn '&' = ('?' :: first) :: others := by
    rw [List.splitOn_cons_eq_if_modifyHead, pieces]
    rfl
  rw [decode, marked, decode, pieces, List.filter_cons_of_pos (by simp), List.map_cons,
    decodeField_mark_cons]
  -- An empty first piece is skipped, while the mark alone makes a field of it.
  cases first with
  | nil => exact .removed _
  | cons char rest => exact .renamed _ _ _

/-- The first field is not found under its name once the mark is dropped. -/
theorem DropsMark.exists_valuesOf_ne {before after : List (String × String)}
    (drops : DropsMark before after) :
    ∃ name, Query.valuesOf name after ≠ Query.valuesOf name before := by
  cases drops with
  | renamed name value later =>
    refine ⟨"?" ++ name, ?_⟩
    have other : name ≠ "?" ++ name := by
      intro same
      have longer := congrArg String.length same
      have mark : "?".length = 1 := rfl
      rw [String.length_append] at longer
      omega
    rw [Query.valuesOf_cons, Query.valuesOf_cons, if_neg other, if_pos rfl]
    exact Ne.symm (List.cons_ne_self value _)
  | removed later =>
    refine ⟨"?", ?_⟩
    rw [Query.valuesOf_cons, if_pos rfl]
    exact Ne.symm (List.cons_ne_self "" _)

end Text.Form

/-- The paths at the mount of a configuration and below it. -/
def Config.Covers (config : Config) (path : String) : Prop :=
  config.mount = "" ∨ path = config.mount ∨ (config.mount ++ "/").toList <+: path.toList

namespace Query

/-- A query that was read from the text behind the question mark of an address. -/
structure IsReadFrom (query : Query) (text : String) : Prop where
  /-- One mark at the start of the text is taken for the one before it. -/
  raw_eq : query.raw = String.ofList (withoutMark text.toList)
  /-- The query groups the pairs of the text without a mark at its start. -/
  isMultimapOf : query.IsMultimapOf (Text.Form.decode (withoutMark text.toList))
  /-- The text is kept as it is exactly if it does not start with a mark. -/
  raw_eq_iff : query.raw = text ↔ text.toList.head? ≠ some '?'
  /-- Exactly then every pair of the text is found under its own name, and nothing else is. -/
  getAll_eq_iff : (∀ name, query.getAll name = valuesOf name (Text.Form.decode text.toList)) ↔
    text.toList.head? ≠ some '?'
  /-- In any other text, only the first pair is read under another name or not at all. -/
  dropsMark : text.toList.head? = some '?' →
    Text.Form.DropsMark (Text.Form.decode text.toList) (Text.Form.decode (withoutMark text.toList))

theorem withoutMark_eq_self_iff {text : List Char} :
    withoutMark text = text ↔ text.head? ≠ some '?' := by
  constructor
  · intro same first
    obtain ⟨rest, rfl⟩ := List.head?_eq_some_iff.mp first
    exact List.cons_ne_self '?' rest same.symm
  · exact withoutMark_of_head?_ne

theorem isReadFrom_ofText (text : String) : (ofText text).IsReadFrom text := by
  have fields : (ofText text).IsMultimapOf (Text.Form.decode (withoutMark text.toList)) :=
    isMultimapOf_group _ _
  have drops : text.toList.head? = some '?' → Text.Form.DropsMark (Text.Form.decode text.toList)
      (Text.Form.decode (withoutMark text.toList)) := by
    intro first
    obtain ⟨rest, starts⟩ := List.head?_eq_some_iff.mp first
    rw [starts]
    exact Text.Form.dropsMark_decode rest
  refine ⟨rfl, fields, ?_, ⟨?_, ?_⟩, drops⟩
  · rw [← withoutMark_eq_self_iff, ← String.toList_inj, ofText, String.toList_ofList]
  · intro found first
    obtain ⟨name, lost⟩ := (drops first).exists_valuesOf_ne
    apply lost
    rw [← fields.getAll_eq, found]
  · intro plain name
    rw [fields.getAll_eq, withoutMark_of_head?_ne plain]

end Query

namespace Address

variable {config : Config} {path query : String}

theorem exists_below?_of_covers (covers : config.Covers path) :
    ∃ inside, below? config.mount.toList path.toList = some inside := by
  rw [below?]
  rcases covers with unmounted | rfl | starts
  · simp [unmounted]
  · split <;> simp
  · have divided : (config.mount.toList ++ ['/']).isPrefixOf path.toList = true := by
      rw [List.isPrefixOf_iff_prefix]
      simpa using starts
    split <;> simp [divided]

/-- Behind a path part, an address has the query that is read from the text behind the first
question mark. -/
theorem query_is_read_behind_mark (covers : config.Covers path) (whole : '?' ∉ path.toList)
    (clean : '#' ∉ path.toList) (clean' : '#' ∉ query.toList) :
    ∃ address, parse? config (path ++ "?" ++ query) = some address ∧
      address.query.IsReadFrom query := by
  obtain ⟨inside, below⟩ := exists_below?_of_covers covers
  have spelled : path ++ "?" ++ query =
      String.ofList (path.toList ++ '?' :: query.toList ++ []) := by
    apply String.toList_inj.mp
    simp
  have written : Written path.toList query.toList (path ++ "?" ++ query) :=
    spelled ▸ .queried whole clean clean' (by simp)
  refine ⟨ofParts config inside query.toList, ?_, ?_⟩
  · rw [written.parse?_eq, below, Option.map_some]
  · rw [ofParts, String.ofList_toList]
    exact Query.isReadFrom_ofText query

/-- Below the mount `/app`, the first of three pairs has a mark in its name and is read without it.
The mark in the second pair is its value. -/
theorem query_is_read_behind_mark_app :
    (⟨"/app", true⟩ : Config).Covers "/app/a" ∧ '?' ∉ "/app/a".toList ∧ '#' ∉ "/app/a".toList ∧
      '#' ∉ "?x=1&y=?&y".toList ∧
      ∃ address, parse? ⟨"/app", true⟩ ("/app/a" ++ "?" ++ "?x=1&y=?&y") = some address ∧
        address.query.IsReadFrom "?x=1&y=?&y" := by
  have covers : (⟨"/app", true⟩ : Config).Covers "/app/a" := .inr (.inr (by decide))
  exact ⟨covers, by decide, by decide, by decide,
    query_is_read_behind_mark covers (by decide) (by decide) (by decide)⟩

/-- A query text need not be kept, nor its pairs be found under their names. -/
theorem second_mark_is_lost :
    ¬ ∀ (config : Config) (path query : String), config.Covers path → '?' ∉ path.toList →
      '#' ∉ path.toList → '#' ∉ query.toList →
      ∃ address, parse? config (path ++ "?" ++ query) = some address ∧
        address.query.raw = query ∧
        ∀ name, address.query.getAll name =
          Query.valuesOf name (Text.Form.decode query.toList) := by
  intro kept
  obtain ⟨address, parsed, raw, _⟩ :=
    kept .unmounted "/a" "?x=1" (.inl rfl) (by decide) (by decide) (by decide)
  have read : parse? .unmounted ("/a" ++ "?" ++ "?x=1") =
      some ⟨["a"], false, ⟨"x=1", [⟨"x", "1", []⟩]⟩⟩ := by
    decide
  obtain rfl := Option.some.inj (read.symm.trans parsed)
  exact absurd raw (by decide)

end Address

end RouteTree
