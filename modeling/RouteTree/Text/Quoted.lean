import RouteTree.Text.Printable

/-! # Quoted texts and byte strings

Messages show a text between quotes. The quote is `'` unless the text holds a `'` and no `"`; the
chosen quote, the backslash and characters that are not printable are escaped. Byte strings follow
the same rule with every byte outside printable ASCII escaped.
-/

namespace RouteTree.Text

/-- The quote that needs the fewest escapes, `'` when in doubt. -/
def quoteMark (text : List Char) : Char :=
  if '\'' ∈ text ∧ '"' ∉ text then '"' else '\''

/-- The lower-case digits of `value` in base sixteen, with leading zeros up to `width` digits. -/
def hexDigits : Nat → Nat → List Char
  | 0, _ => []
  | width + 1, value => hexDigits width (value / 16) ++ [Nat.digitChar (value % 16)]

/-- The shortest of the three numeric escapes that can hold the character's code. -/
def numericEscape (char : Char) : List Char :=
  if char.toNat < 0x100 then '\\' :: 'x' :: hexDigits 2 char.toNat
  else if char.toNat < 0x10000 then '\\' :: 'u' :: hexDigits 4 char.toNat
  else '\\' :: 'U' :: hexDigits 8 char.toNat

/-- The escape of a character that has a letter or itself after the backslash, whatever the quote.
-/
def namedEscape? (quote char : Char) : Option (List Char) :=
  if char = '\\' ∨ char = quote then some ['\\', char]
  else if char = '\n' then some ['\\', 'n']
  else if char = '\r' then some ['\\', 'r']
  else if char = '\t' then some ['\\', 't']
  else none

def escapeChar (quote char : Char) : List Char :=
  match namedEscape? quote char with
  | some escape => escape
  | none => if isPrintable char then [char] else numericEscape char

/-- A text between quotes. -/
def quoted (text : String) : String :=
  let quote := quoteMark text.toList
  String.ofList (quote :: text.toList.flatMap (escapeChar quote) ++ [quote])

def escapeByte (quote : Char) (byte : UInt8) : List Char :=
  let char := Char.ofNat byte.toNat
  match namedEscape? quote char with
  | some escape => escape
  | none => if 0x20 ≤ byte.toNat ∧ byte.toNat < 0x7F then [char] else numericEscape char

/-- A byte string between quotes, marked by a `b` before them. -/
def quotedBytes (bytes : List UInt8) : String :=
  let quote := quoteMark (bytes.map fun byte => Char.ofNat byte.toNat)
  String.ofList ('b' :: quote :: bytes.flatMap (escapeByte quote) ++ [quote])

end RouteTree.Text
