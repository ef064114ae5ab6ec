import RouteTree.Text.Utf8

/-! # Percent-encoding

Writing keeps the unreserved characters and spells every other one by its bytes, two upper-case
hexadecimal digits after a `%`. Reading replaces every such triple by its byte, leaves a `%` that
starts none as it is, and reads the bytes as UTF-8.
-/

namespace RouteTree.Text.Percent

/-- The characters that need no encoding: ASCII letters and digits, and four marks. -/
def isUnreserved (char : Char) : Bool :=
  char.isAlphanum || char == '_' || char == '.' || char == '-' || char == '~'

/-- The upper-case digit for a value below sixteen. -/
def hexDigit (value : Nat) : Char :=
  if value < 10 then Char.ofNat (0x30 + value) else Char.ofNat (0x41 + (value - 10))

/-- The value of a digit in either case. -/
def hexValue? (char : Char) : Option Nat :=
  if '0' ≤ char ∧ char ≤ '9' then some (char.toNat - 0x30)
  else if 'A' ≤ char ∧ char ≤ 'F' then some (char.toNat - 0x41 + 10)
  else if 'a' ≤ char ∧ char ≤ 'f' then some (char.toNat - 0x61 + 10)
  else none

def encodeByte (byte : UInt8) : List Char :=
  ['%', hexDigit (byte.toNat / 16), hexDigit (byte.toNat % 16)]

def encodeChar (char : Char) : List Char :=
  if isUnreserved char then [char] else (String.utf8EncodeChar char).flatMap encodeByte

/-- Write a text with unreserved characters and encoded bytes only. -/
def encode (text : List Char) : List Char :=
  text.flatMap encodeChar

/-- The bytes of a text in which every well-formed triple stands for one byte. -/
def bytes : List Char → List UInt8
  | '%' :: high :: low :: rest =>
    match hexValue? high, hexValue? low with
    | some h, some l => UInt8.ofNat (16 * h + l) :: bytes rest
    | _, _ => String.utf8EncodeChar '%' ++ bytes (high :: low :: rest)
  | char :: rest => String.utf8EncodeChar char ++ bytes rest
  | [] => []

/-- Read a text back; reading never fails. -/
def decode (text : List Char) : List Char :=
  Utf8.decode (bytes text)

end RouteTree.Text.Percent
