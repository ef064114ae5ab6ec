import RouteTree.Proofs.Text.Utf8
import RouteTree.Text.Percent

/-! # Percent-encoding is undone by reading

Unreserved characters are read as themselves and every triple as its byte, so that the bytes of an
encoded text are those of the text. An encoded text holds only unreserved characters and `%`.
-/

namespace RouteTree.Text.Percent

/-! ## The characters of an encoded text -/

/-- The characters that an encoded text can hold. -/
def isWritten (char : Char) : Bool :=
  isUnreserved char || char == '%'

theorem isUnreserved_hexDigit : ∀ value < 16, isUnreserved (hexDigit value) = true := by
  decide

theorem isWritten_of_mem_encodeByte {byte : UInt8} {char : Char}
    (member : char ∈ encodeByte byte) : isWritten char = true := by
  have small : byte.toNat < 256 := UInt8.toNat_lt byte
  simp only [encodeByte, List.mem_cons, List.not_mem_nil, or_false] at member
  rcases member with rfl | rfl | rfl
  · rfl
  · simp [isWritten, isUnreserved_hexDigit (byte.toNat / 16) (by omega)]
  · simp [isWritten, isUnreserved_hexDigit (byte.toNat % 16) (by omega)]

theorem isWritten_of_mem_encodeChar {source char : Char} (member : char ∈ encodeChar source) :
    isWritten char = true := by
  rw [encodeChar] at member
  split at member
  · next unreserved =>
    rw [List.mem_singleton.mp member, isWritten, unreserved]
    rfl
  · obtain ⟨byte, _, written⟩ := List.mem_flatMap.mp member
    exact isWritten_of_mem_encodeByte written

theorem isWritten_of_mem_encode {text : List Char} {char : Char} (member : char ∈ encode text) :
    isWritten char = true := by
  obtain ⟨source, _, written⟩ := List.mem_flatMap.mp member
  exact isWritten_of_mem_encodeChar written

theorem encodeChar_ne_nil (char : Char) : encodeChar char ≠ [] := by
  rw [encodeChar]
  split
  · simp
  · obtain ⟨byte, others, bytes⟩ := List.exists_cons_of_ne_nil
      (String.utf8EncodeChar_ne_nil (c := char))
    rw [bytes, List.flatMap_cons]
    simp [encodeByte]

@[simp] theorem encode_eq_nil_iff {text : List Char} : encode text = [] ↔ text = [] := by
  cases text with
  | nil => simp [encode]
  | cons char rest => simp [encode, encodeChar_ne_nil]

theorem encode_cons (char : Char) (rest : List Char) :
    encode (char :: rest) = encodeChar char ++ encode rest :=
  List.flatMap_cons

/-- Writing makes no text shorter. -/
theorem length_le_length_encode (text : List Char) : text.length ≤ (encode text).length := by
  induction text with
  | nil => exact Nat.zero_le _
  | cons char rest ih =>
    have written := List.length_pos_iff.mpr (encodeChar_ne_nil char)
    rw [encode_cons, List.length_append, List.length_cons]
    omega

theorem one_lt_length_encodeChar {char : Char} (reserved : isUnreserved char = false) :
    1 < (encodeChar char).length := by
  obtain ⟨byte, others, bytes⟩ := List.exists_cons_of_ne_nil
    (String.utf8EncodeChar_ne_nil (c := char))
  rw [encodeChar, if_neg (by simp [reserved]), bytes, List.flatMap_cons, List.length_append]
  have triple : (encodeByte byte).length = 3 := rfl
  omega

/-- Just the texts without reserved characters are written as they are. -/
theorem encode_eq_self_iff {text : List Char} :
    encode text = text ↔ ∀ char ∈ text, isUnreserved char = true := by
  induction text with
  | nil => simp [encode]
  | cons char rest ih =>
    rw [encode_cons, List.forall_mem_cons]
    cases kept : isUnreserved char with
    | true =>
      rw [encodeChar, if_pos kept, List.cons_append, List.nil_append, List.cons_inj_right, ih]
      simp
    | false =>
      have longer := one_lt_length_encodeChar kept
      have onward := length_le_length_encode rest
      refine ⟨fun same => ?_, fun plain => Bool.noConfusion plain.1⟩
      have lengths := congrArg List.length same
      rw [List.length_append, List.length_cons] at lengths
      omega

/-- The written form of a whole text. -/
def encoded (text : String) : String :=
  String.ofList (encode text.toList)

theorem encoded_eq_self_iff {text : String} :
    encoded text = text ↔ ∀ char ∈ text.toList, isUnreserved char = true := by
  rw [← encode_eq_self_iff, encoded, ← String.toList_inj, String.toList_ofList]

/-- Texts are the same in their written forms when no character of them is reserved. -/
theorem map_encoded_eq_self_iff {texts : List String} :
    texts.map encoded = texts ↔
      ∀ text ∈ texts, ∀ char ∈ text.toList, isUnreserved char = true := by
  have pointwise : texts.map encoded = texts.map id ↔ ∀ text ∈ texts, encoded text = id text :=
    List.map_inj_left
  rw [List.map_id] at pointwise
  rw [pointwise]
  exact forall₂_congr fun text _ => encoded_eq_self_iff

/-! ## Reading -/

theorem hexValue?_hexDigit : ∀ value < 16, hexValue? (hexDigit value) = some value := by
  decide

theorem bytes_encodeByte (byte : UInt8) (rest : List Char) :
    bytes (encodeByte byte ++ rest) = byte :: bytes rest := by
  have small : byte.toNat < 256 := UInt8.toNat_lt byte
  have high := hexValue?_hexDigit (byte.toNat / 16) (by omega)
  have low := hexValue?_hexDigit (byte.toNat % 16) (by omega)
  have whole : 16 * (byte.toNat / 16) + byte.toNat % 16 = byte.toNat := by omega
  simp only [encodeByte, List.cons_append, List.nil_append, bytes, high, low, whole,
    UInt8.ofNat_toNat]

theorem bytes_flatMap_encodeByte (octets : List UInt8) (rest : List Char) :
    bytes (octets.flatMap encodeByte ++ rest) = octets ++ bytes rest := by
  induction octets with
  | nil => rfl
  | cons byte others ih =>
    rw [List.flatMap_cons, List.append_assoc, bytes_encodeByte, ih, List.cons_append]

/-- A character other than `%` stands for its own bytes. -/
theorem bytes_cons {char : Char} (plain : char ≠ '%') (rest : List Char) :
    bytes (char :: rest) = String.utf8EncodeChar char ++ bytes rest := by
  rw [bytes]
  rintro high low more rfl
  exact fun _ => plain rfl

/-- A character other than `%` stands for itself. -/
theorem decode_cons {char : Char} (plain : char ≠ '%') (rest : List Char) :
    decode (char :: rest) = char :: decode rest := by
  rw [decode, bytes_cons plain, Utf8.decode, Utf8.decodeFrom_utf8EncodeChar]
  rfl

theorem bytes_encodeChar (char : Char) (rest : List Char) :
    bytes (encodeChar char ++ rest) = String.utf8EncodeChar char ++ bytes rest := by
  rw [encodeChar]
  split
  · next unreserved =>
    have plain : char ≠ '%' := by
      rintro rfl
      contradiction
    exact bytes_cons plain rest
  · exact bytes_flatMap_encodeByte _ rest

theorem bytes_encode (text : List Char) : bytes (encode text) = Utf8.encode text := by
  induction text with
  | nil => rfl
  | cons char rest ih =>
    rw [encode, List.flatMap_cons, bytes_encodeChar, Utf8.encode, List.flatMap_cons]
    exact congrArg (String.utf8EncodeChar char ++ ·) ih

/-- Reading is the inverse of writing. -/
@[simp] theorem decode_encode (text : List Char) : decode (encode text) = text := by
  rw [decode, bytes_encode, Utf8.decode_encode]

theorem bytes_ne_nil {text : List Char} (present : text ≠ []) : bytes text ≠ [] := by
  rw [bytes.eq_def]
  split
  · split
    · simp
    · exact List.append_ne_nil_of_left_ne_nil String.utf8EncodeChar_ne_nil _
  · exact List.append_ne_nil_of_left_ne_nil String.utf8EncodeChar_ne_nil _
  · contradiction

/-- A text that is not empty stands for one that is not empty. -/
theorem decode_ne_nil {text : List Char} (present : text ≠ []) : decode text ≠ [] :=
  Utf8.decode_ne_nil (bytes_ne_nil present)

end RouteTree.Text.Percent
