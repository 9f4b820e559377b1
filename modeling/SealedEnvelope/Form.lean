import SealedEnvelope.Bytes.Hex
import SealedEnvelope.Table
import SealedEnvelope.Text.Split

/-!
# Form bodies (SPEC_FULL §4.6, §10.4)

Pairs of texts as `application/x-www-form-urlencoded`: `&` between the pairs, `=` inside them, `+`
for a space and percent escapes for the bytes of all other characters that are not plain.
-/

set_option autoImplicit false

namespace SealedEnvelope

namespace Form

/-! ## Encoding -/

/-- Whether a byte stands for itself: letters, digits, and four marks. -/
def isPlain (byte : UInt8) : Bool :=
  (0x30 ≤ byte && byte ≤ 0x39) || (0x41 ≤ byte && byte ≤ 0x5A) || (0x61 ≤ byte && byte ≤ 0x7A)
    || byte = 0x2E || byte = 0x2D || byte = 0x2A || byte = 0x5F

/-- The digit of a number below sixteen, in upper case. -/
def escapeDigit (n : Nat) : Char := Char.ofNat (if n < 10 then 48 + n else 55 + n)

/-- How a byte is written. -/
def encodeByte (byte : UInt8) : List Char :=
  if isPlain byte then [Char.ofNat byte.toNat]
  else if byte = 0x20 then ['+']
  else ['%', escapeDigit (byte.toNat / 16), escapeDigit (byte.toNat % 16)]

/-- How a key or a value is written. -/
def encode (text : String) : List Char := (Utf8.encode text).flatMap encodeByte

/-! ## Decoding -/

/-- The bytes of a key or a value after its escapes are resolved.  A percent sign that two digits do
not follow stands for itself. -/
def unescape : Bytes → Bytes
  | [] => []
  | byte :: rest =>
    if byte = 0x25 then
      match rest with
      | high :: low :: rest' =>
        match Hex.value? high, Hex.value? low with
        | some h, some l => UInt8.ofNat (16 * h + l) :: unescape rest'
        | _, _ => byte :: unescape (high :: low :: rest')
      | _ => byte :: rest
    else byte :: unescape rest

/-- The text that a written key or value stands for.  Bytes that are no text are replaced. -/
def decodePart (written : List Char) : String :=
  let spaced := written.map fun c => if c = '+' then ' ' else c
  String.ofList (Utf8.decodeLossy (unescape (Utf8.encodeChars spaced)))

/-- The pair that a segment between two `&` stands for, if it has exactly one `=`. -/
def decodePair? (segment : List Char) : Option (String × String) :=
  match Text.split '=' segment with
  | [key, value] => some (decodePart key, decodePart value)
  | _ => none

/-- The pairs of a body, in order. -/
def pairs (body : String) : List (String × String) :=
  (Text.split '&' body.toList).filterMap decodePair?

/-- The fields of a body.  Of several with one key the last one counts. -/
def decode (body : String) : Table String String := Table.ofList (pairs body)

end Form

/-! ## Building bodies -/

/-- A body that is being built. -/
structure FormBody where
  chars : List Char
  deriving DecidableEq, Repr, Inhabited

namespace FormBody

/-- The body without pairs. -/
def empty : FormBody := ⟨[]⟩

/-- The body with one more pair at its end. -/
def add (body : FormBody) (key value : String) : FormBody :=
  let separator := if body.chars.isEmpty then [] else ['&']
  ⟨body.chars ++ separator ++ Form.encode key ++ '=' :: Form.encode value⟩

/-- The body of a list of pairs. -/
def ofPairs (pairs : List (String × String)) : FormBody :=
  pairs.foldl (fun body pair => body.add pair.1 pair.2) empty

/-- The text of a body. -/
def text (body : FormBody) : String := String.ofList body.chars

/-- The description of a body, which says no more than its length: a body mostly carries a
secret. -/
def describe (body : FormBody) : String :=
  let length := (Utf8.encodeChars body.chars).length
  s!"FormBody \x7b len: {length} \x7d"

end FormBody

end SealedEnvelope
