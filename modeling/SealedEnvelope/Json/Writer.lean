import SealedEnvelope.Bytes.Hex
import SealedEnvelope.Number.Decimal

/-!
# Writing JSON

Documents without spaces.  In a string only the quote, the backslash and the controls are escaped.
-/

set_option autoImplicit false

namespace SealedEnvelope

namespace Json

/-- A character inside a string. -/
def escapedChar (c : Char) : List Char :=
  if c = '"' then ['\\', '"']
  else if c = '\\' then ['\\', '\\']
  else if c = '\x08' then ['\\', 'b']
  else if c = '\x0c' then ['\\', 'f']
  else if c = '\n' then ['\\', 'n']
  else if c = '\r' then ['\\', 'r']
  else if c = '\t' then ['\\', 't']
  else if c.toNat < 0x20 then
    ['\\', 'u', '0', '0', Hex.digit (c.toNat / 16), Hex.digit (c.toNat % 16)]
  else [c]

/-- A text as a string. -/
def writeText (text : String) : List Char := '"' :: text.toList.flatMap escapedChar ++ ['"']

/-- A natural number. -/
def writeNatural (n : Nat) : List Char := Decimal.digits n

/-- Parts with a comma between each two. -/
def writeSeparated : List (List Char) → List Char
  | [] => []
  | [part] => part
  | part :: next :: rest => part ++ ',' :: writeSeparated (next :: rest)

/-- An array of written items. -/
def writeArray (items : List (List Char)) : List Char := '[' :: writeSeparated items ++ [']']

/-- An object of names and written values. -/
def writeObject (members : List (String × List Char)) : List Char :=
  '\x7b' :: writeSeparated (members.map fun (name, value) => writeText name ++ ':' :: value)
    ++ ['\x7d']

end Json

end SealedEnvelope
