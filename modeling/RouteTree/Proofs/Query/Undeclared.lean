import RouteTree.Address
import RouteTree.Proofs.Query.Sources

/-! # Pairs that nobody asks for

A query text is read pair by pair, and a pair adds to the values of its own name only. Pairs of
other names can therefore stand anywhere between those of a name, or be missing, without a change to
the values of that name. In a path text, the query text is cut off before anything else is read.
-/

namespace RouteTree

namespace Text.Form

variable {free : String → Prop} {before after : List (List Char)}

/-- The pairs of a text as they are written. -/
def pairs (text : List Char) : List (List Char) :=
  (text.splitOn '&').filter fun written => !written.isEmpty

theorem decode_eq_map (text : List Char) : decode text = (pairs text).map decodeField :=
  rfl

/-- Written pairs before and after an edit that adds and removes pairs of free names. -/
inductive Edited (free : String → Prop) : List (List Char) → List (List Char) → Prop
  | nil : Edited free [] []
  | keep {before after : List (List Char)} (written : List Char)
      (rest : Edited free before after) : Edited free (written :: before) (written :: after)
  | add {before after : List (List Char)} {written : List Char}
      (unused : free (decodeField written).1) (rest : Edited free before after) :
      Edited free before (written :: after)
  | remove {before after : List (List Char)} {written : List Char}
      (unused : free (decodeField written).1) (rest : Edited free before after) :
      Edited free (written :: before) after

/-- A name that is not free has the same values after the edit. -/
theorem Edited.valuesOf_eq (edited : Edited free before after) {name : String}
    (used : ¬ free name) :
    Query.valuesOf name (after.map decodeField) =
      Query.valuesOf name (before.map decodeField) := by
  have other {written : List Char} (unused : free (decodeField written).1) :
      (decodeField written).1 ≠ name := by
    rintro rfl
    exact used unused
  induction edited with
  | nil => rfl
  | keep written _ ih =>
    rw [List.map_cons, List.map_cons, Query.valuesOf_cons, Query.valuesOf_cons, ih]
  | add unused _ ih =>
    rw [List.map_cons, Query.valuesOf_cons, if_neg (other unused), List.nil_append, ih]
  | remove unused _ ih =>
    rw [List.map_cons, Query.valuesOf_cons, if_neg (other unused), List.nil_append, ih]

end Text.Form

namespace Query

/-- The values of a name are those of its pairs, in their order. -/
theorem getAll_ofText {text : List Char} (unmarked : text.head? ≠ some '?') (name : String) :
    (ofText (String.ofList text)).getAll name =
      valuesOf name ((Text.Form.pairs text).map Text.Form.decodeField) := by
  simp only [ofText, String.toList_ofList, withoutMark_of_head?_ne unmarked]
  rw [getAll_group, Text.Form.decode_eq_map]

end Query

namespace Address

/-- A text is written as a path part with a query text behind it, and perhaps a fragment behind
both. Without a question mark the query text is empty. -/
inductive Written (path : List Char) : List Char → String → Prop
  | bare {fragment : List Char} (whole : '?' ∉ path) (clean : '#' ∉ path)
      (ends : ∀ char ∈ fragment.head?, char = '#') :
      Written path [] (String.ofList (path ++ fragment))
  | queried {query fragment : List Char} (whole : '?' ∉ path) (clean : '#' ∉ path)
      (clean' : '#' ∉ query) (ends : ∀ char ∈ fragment.head?, char = '#') :
      Written path query (String.ofList (path ++ '?' :: query ++ fragment))

theorem before_fragment {fragment : List Char} (ends : ∀ char ∈ fragment.head?, char = '#') :
    Text.before '#' fragment = [] := by
  cases fragment with
  | nil => rfl
  | cons char rest =>
    obtain rfl := ends char rfl
    exact Text.before_append_mark List.not_mem_nil rest

/-- A text is read from the parts that it is written with. -/
theorem Written.parse?_eq {path query : List Char} {text : String}
    (written : Written path query text) (config : Config) :
    parse? config text =
      (below? config.mount.toList path).map fun inside => ofParts config inside query := by
  rw [parse?]
  cases written with
  | bare whole clean ends =>
    rw [String.toList_ofList, Text.before_append clean, before_fragment ends, List.append_nil,
      Text.before_eq_self whole, Text.after_eq_nil whole]
  | queried whole clean clean' ends =>
    have clean : '#' ∉ path ++ '?' :: query := by simp [clean, clean']
    rw [String.toList_ofList, Text.before_append clean, before_fragment ends, List.append_nil,
      Text.before_append_mark whole, Text.after_append_mark whole]

end Address

end RouteTree
