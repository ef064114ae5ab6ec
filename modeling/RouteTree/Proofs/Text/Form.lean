import RouteTree.Proofs.Text.Percent
import RouteTree.Text.Form

/-! # Form fields are read back

No encoded name or value holds `&`, `=` or a blank, so that cutting a form at these marks finds its
fields again. A field is never skipped as empty, since it holds `=` at least.
-/

namespace RouteTree.Text.Form

/-- The characters that an encoded name or value can hold. -/
def isWritten (char : Char) : Bool :=
  Percent.isWritten char || char == '+'

theorem isWritten_of_mem_encodeText {text : String} {char : Char}
    (member : char ∈ encodeText text) : isWritten char = true := by
  obtain ⟨source, _, written⟩ := List.mem_flatMap.mp member
  rw [encodeChar] at written
  split at written
  · rw [List.mem_singleton.mp written]
    rfl
  · rw [isWritten, Percent.isWritten_of_mem_encodeChar written]
    rfl

theorem notMem_encodeText {char : Char} (unwritten : isWritten char = false) (text : String) :
    char ∉ encodeText text := by
  intro member
  rw [isWritten_of_mem_encodeText member] at unwritten
  contradiction

/-- Only the marks `&` and `=` are added to what names and values hold. -/
theorem notMem_encode {char : Char} (unwritten : isWritten char = false) (plain : char ≠ '&')
    (other : char ≠ '=') (fields : List (String × String)) : char ∉ encode fields := by
  intro member
  obtain ⟨part, listed, inside⟩ := (mem_intercalate_iff (by simpa using plain)).mp member
  obtain ⟨field, _, rfl⟩ := List.mem_map.mp listed
  simp [encodeField, notMem_encodeText unwritten, other] at inside

/-! ## Reading -/

theorem plusToBlank_of_isWritten {char : Char} (written : Percent.isWritten char = true) :
    plusToBlank char = char := by
  rw [plusToBlank, if_neg]
  rintro rfl
  contradiction

/-- With blanks for plus signs, a character stands for its own bytes. -/
theorem bytes_encodeChar (char : Char) (rest : List Char) :
    Percent.bytes ((encodeChar char).map plusToBlank ++ rest) =
      String.utf8EncodeChar char ++ Percent.bytes rest := by
  rw [encodeChar]
  split
  · next blank =>
    subst blank
    exact Percent.bytes_cons (by decide) rest
  · have same : (Percent.encodeChar char).map plusToBlank = Percent.encodeChar char := by
      refine (List.map_congr_left fun written member => ?_).trans (List.map_id _)
      exact plusToBlank_of_isWritten (Percent.isWritten_of_mem_encodeChar member)
    rw [same, Percent.bytes_encodeChar]

theorem bytes_flatMap_encodeChar (text : List Char) :
    Percent.bytes ((text.flatMap encodeChar).map plusToBlank) = Utf8.encode text := by
  induction text with
  | nil => rfl
  | cons char rest ih =>
    rw [List.flatMap_cons, List.map_append, bytes_encodeChar, ih, Utf8.encode, Utf8.encode,
      List.flatMap_cons]

@[simp] theorem decodeText_encodeText (text : String) : decodeText (encodeText text) = text := by
  rw [decodeText, Percent.decode, encodeText, bytes_flatMap_encodeChar, Utf8.decode_encode,
    String.ofList_toList]

theorem decodeField_encodeField (field : String × String) :
    decodeField (encodeField field) = field := by
  have absent : '=' ∉ encodeText field.1 := notMem_encodeText rfl field.1
  simp [decodeField, encodeField, absent]

/-- Reading is the inverse of writing. -/
theorem decode_encode (fields : List (String × String)) : decode (encode fields) = fields := by
  cases fields with
  | nil => simp [decode, encode]
  | cons field rest =>
    have apart : ∀ written ∈ (field :: rest).map encodeField, '&' ∉ written := by
      intro written member
      obtain ⟨source, _, rfl⟩ := List.mem_map.mp member
      have unwritten : isWritten '&' = false := rfl
      simp [encodeField, notMem_encodeText unwritten]
    have kept : ∀ written ∈ (field :: rest).map encodeField, (!written.isEmpty) = true := by
      intro written member
      obtain ⟨source, _, rfl⟩ := List.mem_map.mp member
      simp [encodeField]
    rw [decode, encode, List.splitOn_intercalate _ apart (by simp), List.filter_eq_self.mpr kept,
      List.map_map]
    refine (List.map_congr_left fun source _ => ?_).trans (List.map_id _)
    exact decodeField_encodeField source

end RouteTree.Text.Form
