/-! # Reading UTF-8 that may be damaged

Percent-encoded text can stand for any bytes, so reading it back must not fail. The reader goes byte
by byte: a byte that cannot continue the character under way ends it, the unfinished bytes become
one replacement character, and the byte is read again as a first one. Each longest run of bytes that
could have begun a character is therefore replaced once.
-/

namespace RouteTree.Text.Utf8

/-- What stands for bytes that form no character. -/
def replacement : Char := '\uFFFD'

/-- A character under way: the part of its code that is known, how many bytes it lacks beyond the
next one, and the range that the next one has to lie in. -/
structure Pending where
  code : Nat
  owed : Nat
  least : Nat
  greatest : Nat
  deriving DecidableEq, Repr

/-- A byte read between two characters: what it yields, and the character it begins. The ranges
exclude overlong forms, surrogates and codes beyond the last one. -/
def start (byte : Nat) : List Char × Option Pending :=
  if byte < 0x80 then ([Char.ofNat byte], none)
  else if byte < 0xC2 then ([replacement], none)
  else if byte < 0xE0 then ([], some ⟨byte - 0xC0, 0, 0x80, 0xBF⟩)
  else if byte = 0xE0 then ([], some ⟨0x0, 1, 0xA0, 0xBF⟩)
  else if byte = 0xED then ([], some ⟨0xD, 1, 0x80, 0x9F⟩)
  else if byte < 0xF0 then ([], some ⟨byte - 0xE0, 1, 0x80, 0xBF⟩)
  else if byte = 0xF0 then ([], some ⟨0x0, 2, 0x90, 0xBF⟩)
  else if byte < 0xF4 then ([], some ⟨byte - 0xF0, 2, 0x80, 0xBF⟩)
  else if byte = 0xF4 then ([], some ⟨0x4, 2, 0x80, 0x8F⟩)
  else ([replacement], none)

/-- A byte that continues a character under way completes it or leaves it under way; any other byte
breaks it off and is read as a first one. -/
def Pending.step (pending : Pending) (byte : Nat) : List Char × Option Pending :=
  if pending.least ≤ byte ∧ byte ≤ pending.greatest then
    match pending.owed with
    | 0 => ([Char.ofNat (pending.code * 64 + byte % 64)], none)
    | owed + 1 => ([], some ⟨pending.code * 64 + byte % 64, owed, 0x80, 0xBF⟩)
  else
    (replacement :: (start byte).1, (start byte).2)

/-- One byte, whether or not a character is under way. -/
def step : Option Pending → Nat → List Char × Option Pending
  | none, byte => start byte
  | some pending, byte => pending.step byte

/-- The characters of the remaining bytes; one broken off by the end is replaced. -/
def decodeFrom : Option Pending → List UInt8 → List Char
  | none, [] => []
  | some _, [] => [replacement]
  | state, byte :: rest =>
    (step state byte.toNat).1 ++ decodeFrom (step state byte.toNat).2 rest

/-- The characters that a byte sequence stands for. -/
def decode (bytes : List UInt8) : List Char :=
  decodeFrom none bytes

/-- The bytes of a text. -/
def encode (text : List Char) : List UInt8 :=
  text.flatMap String.utf8EncodeChar

end RouteTree.Text.Utf8
