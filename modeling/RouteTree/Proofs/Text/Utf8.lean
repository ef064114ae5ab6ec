import RouteTree.Text.Utf8

/-! # Reading encoded characters

The bytes of a character take the reader through one character under way and back between two
characters. The first byte fixes a range that the second one keeps to, since a character is neither
overlong nor a surrogate.
-/

namespace RouteTree.Text.Utf8

/-- A byte in range with nothing owed after it completes the character. -/
theorem decodeFrom_last {code least greatest : Nat} {byte : UInt8} (low : least ≤ byte.toNat)
    (high : byte.toNat ≤ greatest) (rest : List UInt8) :
    decodeFrom (some ⟨code, 0, least, greatest⟩) (byte :: rest) =
      Char.ofNat (code * 64 + byte.toNat % 64) :: decodeFrom none rest := by
  simp [decodeFrom, step, Pending.step, low, high]

/-- A byte in range leaves the character under way while more is owed. -/
theorem decodeFrom_next {code owed least greatest : Nat} {byte : UInt8}
    (low : least ≤ byte.toNat) (high : byte.toNat ≤ greatest) (rest : List UInt8) :
    decodeFrom (some ⟨code, owed + 1, least, greatest⟩) (byte :: rest) =
      decodeFrom (some ⟨code * 64 + byte.toNat % 64, owed, 0x80, 0xBF⟩) rest := by
  simp [decodeFrom, step, Pending.step, low, high]

theorem decodeFrom_start {byte : UInt8} {yielded : List Char} {pending : Option Pending}
    (started : start byte.toNat = (yielded, pending)) (rest : List UInt8) :
    decodeFrom none (byte :: rest) = yielded ++ decodeFrom pending rest := by
  simp [decodeFrom, step, started]

/-- The byte that a number below 256 stands for. -/
theorem toNat_ofNat (number : Nat) (small : number < 256) :
    (UInt8.ofNat number).toNat = number := by
  rw [UInt8.toNat_ofNat']
  omega

/-- A byte that continues a character holds six bits of its code. -/
theorem toNat_tail (number : Nat) :
    (UInt8.ofNat (number % 0x40 + 0x80)).toNat = number % 0x40 + 0x80 := by
  apply toNat_ofNat
  omega

/-! ## Characters by the number of their bytes -/

variable (code : Nat) (rest : List UInt8)

theorem decodeFrom_one (greatest : code ≤ 0x7F) :
    decodeFrom none (UInt8.ofNat code :: rest) = Char.ofNat code :: decodeFrom none rest := by
  have started : start (UInt8.ofNat code).toNat = ([Char.ofNat code], none) := by
    rw [toNat_ofNat code (by omega), start, if_pos (by omega)]
  rw [decodeFrom_start started, List.singleton_append]

theorem decodeFrom_two (least : 0x80 ≤ code) (greatest : code ≤ 0x7FF) :
    decodeFrom none (UInt8.ofNat (code / 64 % 0x20 + 0xC0) ::
        UInt8.ofNat (code % 0x40 + 0x80) :: rest) = Char.ofNat code :: decodeFrom none rest := by
  have first : code / 64 % 0x20 = code / 64 := by omega
  have started : start (UInt8.ofNat (code / 64 % 0x20 + 0xC0)).toNat =
      ([], some ⟨code / 64, 0, 0x80, 0xBF⟩) := by
    rw [toNat_ofNat _ (by omega), first, start, if_neg (by omega), if_neg (by omega),
      if_pos (by omega), Nat.add_sub_cancel]
  have whole : code / 64 * 64 + (code % 0x40 + 0x80) % 64 = code := by omega
  rw [decodeFrom_start started, List.nil_append,
    decodeFrom_last (by rw [toNat_tail]; omega) (by rw [toNat_tail]; omega), toNat_tail, whole]

/-- The first of three bytes admits the second one. -/
theorem start_three (least : 0x800 ≤ code) (greatest : code ≤ 0xFFFF)
    (scalar : code < 0xD800 ∨ 0xDFFF < code) :
    ∃ low high, start (code / 4096 % 0x10 + 0xE0) = ([], some ⟨code / 4096, 1, low, high⟩) ∧
      low ≤ code / 64 % 0x40 + 0x80 ∧ code / 64 % 0x40 + 0x80 ≤ high := by
  have first : code / 4096 % 0x10 = code / 4096 := by omega
  rw [first, start, if_neg (by omega), if_neg (by omega), if_neg (by omega)]
  by_cases zero : code / 4096 = 0
  · rw [if_pos (by omega), zero]
    exact ⟨_, _, rfl, by omega, by omega⟩
  rw [if_neg (by omega)]
  by_cases surrogates : code / 4096 = 0xD
  · rw [if_pos (by omega), surrogates]
    exact ⟨_, _, rfl, by omega, by omega⟩
  rw [if_neg (by omega), if_pos (by omega), Nat.add_sub_cancel]
  exact ⟨_, _, rfl, by omega, by omega⟩

theorem decodeFrom_three (least : 0x800 ≤ code) (greatest : code ≤ 0xFFFF)
    (scalar : code < 0xD800 ∨ 0xDFFF < code) :
    decodeFrom none (UInt8.ofNat (code / 4096 % 0x10 + 0xE0) ::
        UInt8.ofNat (code / 64 % 0x40 + 0x80) :: UInt8.ofNat (code % 0x40 + 0x80) :: rest) =
      Char.ofNat code :: decodeFrom none rest := by
  obtain ⟨low, high, started, above, below⟩ := start_three code least greatest scalar
  rw [← toNat_ofNat (code / 4096 % 0x10 + 0xE0) (by omega)] at started
  have whole : (code / 4096 * 64 + (code / 64 % 0x40 + 0x80) % 64) * 64 +
      (code % 0x40 + 0x80) % 64 = code := by omega
  rw [decodeFrom_start started, List.nil_append,
    decodeFrom_next (by rwa [toNat_tail]) (by rwa [toNat_tail]),
    decodeFrom_last (by rw [toNat_tail]; omega) (by rw [toNat_tail]; omega), toNat_tail,
    toNat_tail, whole]

/-- The first of four bytes admits the second one. -/
theorem start_four (least : 0x10000 ≤ code) (greatest : code < 0x110000) :
    ∃ low high, start (code / 262144 % 0x08 + 0xF0) = ([], some ⟨code / 262144, 2, low, high⟩) ∧
      low ≤ code / 4096 % 0x40 + 0x80 ∧ code / 4096 % 0x40 + 0x80 ≤ high := by
  have first : code / 262144 % 0x08 = code / 262144 := by omega
  rw [first, start, if_neg (by omega), if_neg (by omega), if_neg (by omega), if_neg (by omega),
    if_neg (by omega), if_neg (by omega)]
  by_cases zero : code / 262144 = 0
  · rw [if_pos (by omega), zero]
    exact ⟨_, _, rfl, by omega, by omega⟩
  rw [if_neg (by omega)]
  by_cases last : code / 262144 = 4
  · rw [if_neg (by omega), if_pos (by omega), last]
    exact ⟨_, _, rfl, by omega, by omega⟩
  rw [if_pos (by omega), Nat.add_sub_cancel]
  exact ⟨_, _, rfl, by omega, by omega⟩

theorem decodeFrom_four (least : 0x10000 ≤ code) (greatest : code < 0x110000) :
    decodeFrom none (UInt8.ofNat (code / 262144 % 0x08 + 0xF0) ::
        UInt8.ofNat (code / 4096 % 0x40 + 0x80) :: UInt8.ofNat (code / 64 % 0x40 + 0x80) ::
          UInt8.ofNat (code % 0x40 + 0x80) :: rest) = Char.ofNat code :: decodeFrom none rest := by
  obtain ⟨low, high, started, above, below⟩ := start_four code least greatest
  rw [← toNat_ofNat (code / 262144 % 0x08 + 0xF0) (by omega)] at started
  have whole : ((code / 262144 * 64 + (code / 4096 % 0x40 + 0x80) % 64) * 64 +
      (code / 64 % 0x40 + 0x80) % 64) * 64 + (code % 0x40 + 0x80) % 64 = code := by omega
  rw [decodeFrom_start started, List.nil_append,
    decodeFrom_next (by rwa [toNat_tail]) (by rwa [toNat_tail]),
    decodeFrom_next (by rw [toNat_tail]; omega) (by rw [toNat_tail]; omega),
    decodeFrom_last (by rw [toNat_tail]; omega) (by rw [toNat_tail]; omega), toNat_tail,
    toNat_tail, toNat_tail, whole]

/-! ## Texts -/

/-- The bytes of a character are read as this character. -/
theorem decodeFrom_utf8EncodeChar (char : Char) :
    decodeFrom none (String.utf8EncodeChar char ++ rest) = char :: decodeFrom none rest := by
  have scalar : char.val.toNat < 0xD800 ∨ 0xDFFF < char.val.toNat ∧ char.val.toNat < 0x110000 :=
    char.valid
  have back : Char.ofNat char.val.toNat = char := Char.ofNat_toNat char
  rw [String.utf8EncodeChar]
  generalize char.val.toNat = code at scalar back
  split
  · next one =>
    rw [List.singleton_append, decodeFrom_one code rest one, back]
  split
  · next one two =>
    rw [List.cons_append, List.singleton_append, decodeFrom_two code rest (by omega) two, back]
  split
  · next two three =>
    simp only [List.cons_append, List.nil_append]
    rw [decodeFrom_three code rest (by omega) three (by omega), back]
  · next two three =>
    simp only [List.cons_append, List.nil_append]
    rw [decodeFrom_four code rest (by omega) (by omega), back]

/-- Reading is the inverse of writing. -/
theorem decode_encode (text : List Char) : decode (encode text) = text := by
  induction text with
  | nil => rfl
  | cons char rest ih =>
    rw [encode, List.flatMap_cons, decode, decodeFrom_utf8EncodeChar]
    exact congrArg (char :: ·) ih

/-! ## Nothing is read without a trace -/

/-- A first byte yields a character or begins one. -/
theorem start_yields (byte : Nat) : (start byte).1 ≠ [] ∨ (start byte).2.isSome = true := by
  rw [start]
  repeat' split
  all_goals simp

/-- Every byte yields a character or leaves one under way. -/
theorem step_yields (state : Option Pending) (byte : Nat) :
    (step state byte).1 ≠ [] ∨ (step state byte).2.isSome = true := by
  cases state with
  | none => exact start_yields byte
  | some pending =>
    rw [step, Pending.step]
    repeat' split
    all_goals simp

theorem decodeFrom_ne_nil {state : Option Pending} {bytes : List UInt8}
    (something : state.isSome = true ∨ bytes ≠ []) : decodeFrom state bytes ≠ [] := by
  induction bytes generalizing state with
  | nil =>
    cases state with
    | none => simp at something
    | some pending => simp [decodeFrom]
  | cons byte rest ih =>
    rw [decodeFrom]
    rcases step_yields state byte.toNat with yielded | pending
    · exact List.append_ne_nil_of_left_ne_nil yielded _
    · exact List.append_ne_nil_of_right_ne_nil _ (ih (.inl pending))

/-- Bytes, however damaged, are read as some text. -/
theorem decode_ne_nil {bytes : List UInt8} (present : bytes ≠ []) : decode bytes ≠ [] :=
  decodeFrom_ne_nil (.inr present)

end RouteTree.Text.Utf8
