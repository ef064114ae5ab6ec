import RouteTree.Text.Cut
import RouteTree.Text.Percent

/-! # Form-encoded fields

The query of an address is a list of fields `name=value` joined by `&`. Blanks are written as `+`.
Reading skips empty fields, gives a field without `=` the empty value, and turns `+` into a blank
before percent-decoding, so that an encoded plus sign survives.
-/

namespace RouteTree.Text.Form

def encodeChar (char : Char) : List Char :=
  if char = ' ' then ['+'] else Percent.encodeChar char

/-- The written form of a name or a value. -/
def encodeText (text : String) : List Char :=
  text.toList.flatMap encodeChar

def encodeField (field : String × String) : List Char :=
  encodeText field.1 ++ '=' :: encodeText field.2

/-- The written form of a list of fields. -/
def encode (fields : List (String × String)) : List Char :=
  List.intercalate ['&'] (fields.map encodeField)

/-- A blank for every `+`, and every other character unchanged. -/
def plusToBlank (char : Char) : Char :=
  if char = '+' then ' ' else char

/-- The name or value that a written form stands for. -/
def decodeText (written : List Char) : String :=
  String.ofList (Percent.decode (written.map plusToBlank))

def decodeField (written : List Char) : String × String :=
  (decodeText (before '=' written), decodeText (after '=' written))

/-- The fields of a text in their order, repeated names included. -/
def decode (text : List Char) : List (String × String) :=
  ((text.splitOn '&').filter (fun written => !written.isEmpty)).map decodeField

end RouteTree.Text.Form
