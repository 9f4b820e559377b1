import SealedEnvelope.Json.Value
import SealedEnvelope.Bytes.Hex

/-!
# Reading JSON

A document as bytes to its structure.  Strings are split into bytes and escapes first, and only then
into text, because a string that is no text matters only where a text is asked for.
-/

set_option autoImplicit false

namespace SealedEnvelope

namespace Json

/-! ## Blanks and words -/

/-- Whether a byte may stand between the parts of a document. -/
def isSpace (byte : UInt8) : Bool := byte = 0x20 || byte = 0x09 || byte = 0x0A || byte = 0x0D

/-- The bytes from the first one that is no space. -/
def skipSpace (bytes : Bytes) : Bytes := bytes.dropWhile isSpace

/-- The bytes after `word`, if they start with it. -/
def afterWord? (word bytes : Bytes) : Option Bytes :=
  match word, bytes with
  | [], bytes => some bytes
  | _ :: _, [] => none
  | w :: word, b :: bytes => if w = b then afterWord? word bytes else none

/-! ## Strings -/

/-- A part of a string: a byte of UTF-8, or the code of sixteen bits that an escape gives. -/
inductive Part where
  | byte (byte : UInt8)
  | code (code : Nat)
  deriving DecidableEq, Repr, Inhabited

/-- The byte that an escape of one letter stands for. -/
def letterEscape? (letter : UInt8) : Option UInt8 :=
  if letter = 0x22 then some 0x22
  else if letter = 0x5C then some 0x5C
  else if letter = 0x2F then some 0x2F
  else if letter = 0x62 then some 0x08
  else if letter = 0x66 then some 0x0C
  else if letter = 0x6E then some 0x0A
  else if letter = 0x72 then some 0x0D
  else if letter = 0x74 then some 0x09
  else none

/-- The number that four hexadecimal digits stand for. -/
def codeOf? (a b c d : UInt8) : Option Nat :=
  match Hex.value? a, Hex.value? b, Hex.value? c, Hex.value? d with
  | some a, some b, some c, some d => some (((a * 16 + b) * 16 + c) * 16 + d)
  | _, _, _, _ => none

/-- The parts of a string after its opening quote, and the bytes after its closing one. -/
def scanString : Bytes → Option (List Part × Bytes)
  | [] => none
  | byte :: rest =>
    if byte = 0x22 then some ([], rest)
    else if byte = 0x5C then
      match rest with
      | [] => none
      | letter :: rest =>
        match letterEscape? letter with
        | some escaped => (scanString rest).map fun (parts, rest) => (.byte escaped :: parts, rest)
        | none =>
          if letter = 0x75 then
            match rest with
            | a :: b :: c :: d :: rest =>
              match codeOf? a b c d with
              | some code => (scanString rest).map fun (parts, rest) => (.code code :: parts, rest)
              | none => none
            | _ => none
          else none
    else if byte < 0x20 then none
    else (scanString rest).map fun (parts, rest) => (.byte byte :: parts, rest)

/-- The UTF-8 of the parts of a string.  Codes of surrogates count in pairs only. -/
def bytesOfParts? : List Part → Option Bytes
  | [] => some []
  | .byte byte :: rest => (bytesOfParts? rest).map (byte :: ·)
  | .code high :: rest =>
    if 0xD800 ≤ high && high < 0xDC00 then
      match rest with
      | .code low :: rest =>
        if 0xDC00 ≤ low && low < 0xE000 then
          let c := Char.ofNat (0x10000 + (high - 0xD800) * 0x400 + (low - 0xDC00))
          (bytesOfParts? rest).map (Utf8.encodeChar c ++ ·)
        else none
      | _ => none
    else if 0xDC00 ≤ high && high < 0xE000 then none
    else (bytesOfParts? rest).map (Utf8.encodeChar (Char.ofNat high) ++ ·)

/-- The text of the parts of a string. -/
def textOfParts? (parts : List Part) : Option String :=
  match bytesOfParts? parts with
  | some bytes => (Utf8.decode bytes).toOption
  | none => none

/-! ## Numbers -/

/-- Whether a byte is a decimal digit. -/
def isDigit (byte : UInt8) : Bool := 0x30 ≤ byte && byte ≤ 0x39

/-- The number that a list of digits stands for. -/
def ofDigits (digits : Bytes) : Nat := digits.foldl (fun n byte => 10 * n + (byte.toNat - 48)) 0

/-- The digits of a whole number and the bytes after them; a zero stands alone. -/
def scanWhole (bytes : Bytes) : Option (Bytes × Bytes) :=
  match bytes.takeWhile isDigit with
  | [] => none
  | first :: others =>
    if first = 0x30 && !others.isEmpty then none
    else some (first :: others, bytes.dropWhile isDigit)

/-- The bytes after a point and its digits; `none` if digits are missing. -/
def afterFraction? : Bytes → Option Bytes
  | 0x2E :: rest => if (rest.takeWhile isDigit).isEmpty then none else some (rest.dropWhile isDigit)
  | bytes => some bytes

/-- The bytes after one sign, if there is one. -/
def afterSign : Bytes → Bytes
  | 0x2B :: rest => rest
  | 0x2D :: rest => rest
  | bytes => bytes

/-- The bytes after a power of ten; `none` if digits are missing. -/
def afterExponent? : Bytes → Option Bytes
  | [] => some []
  | byte :: rest =>
    if byte = 0x65 || byte = 0x45 then
      let rest := afterSign rest
      if (rest.takeWhile isDigit).isEmpty then none else some (rest.dropWhile isDigit)
    else some (byte :: rest)

/-- A number without a sign, and the bytes after it. -/
def scanUnsigned (bytes : Bytes) : Option (Option Nat × Bytes) :=
  match scanWhole bytes with
  | none => none
  | some (whole, rest) =>
    match afterFraction? rest with
    | none => none
    | some afterPoint =>
      match afterExponent? afterPoint with
      | none => none
      | some afterAll =>
        some (if afterAll.length = rest.length then some (ofDigits whole) else none, afterAll)

/-- A number and the bytes after it. -/
def scanNumber : Bytes → Option (Option Nat × Bytes)
  | 0x2D :: rest => (scanUnsigned rest).map fun (_, rest) => (none, rest)
  | bytes => scanUnsigned bytes

/-! ## Values -/

/-- A value that is neither a string nor an array nor an object, and the bytes after it. -/
def readScalar (bytes : Bytes) : Value × Bytes :=
  match afterWord? [0x6E, 0x75, 0x6C, 0x6C] bytes with
  | some rest => (.null, rest)
  | none =>
    match afterWord? [0x74, 0x72, 0x75, 0x65] bytes with
    | some rest => (.bool true, rest)
    | none =>
      match afterWord? [0x66, 0x61, 0x6C, 0x73, 0x65] bytes with
      | some rest => (.bool false, rest)
      | none =>
        match scanNumber bytes with
        | some (natural, rest) => (.number natural, rest)
        | none => (.broken, [])

mutual

/-- A value and the bytes after it.  Every call inside takes one from `fuel`. -/
def readValue : Nat → Bytes → Value × Bytes
  | 0, _ => (.broken, [])
  | fuel + 1, bytes =>
    match skipSpace bytes with
    | [] => (.broken, [])
    | byte :: rest =>
      if byte = 0x22 then
        match scanString rest with
        | some (parts, rest) => (.string (textOfParts? parts), rest)
        | none => (.broken, [])
      else if byte = 0x5B then
        let (items, rest) := readItems fuel rest
        (.array items, rest)
      else if byte = 0x7B then
        let (members, rest) := readMembers fuel rest
        (.object members, rest)
      else readScalar (byte :: rest)

/-- The items of an array after its opening bracket. -/
def readItems : Nat → Bytes → Items × Bytes
  | 0, _ => (.broken, [])
  | fuel + 1, bytes =>
    match skipSpace bytes with
    | [] => (.broken, [])
    | byte :: rest =>
      if byte = 0x5D then (.closed, rest)
      else
        let (head, rest) := readValue fuel (byte :: rest)
        let (tail, rest) := readMoreItems fuel rest
        (.cons head tail, rest)

/-- The items of an array after one of them. -/
def readMoreItems : Nat → Bytes → Items × Bytes
  | 0, _ => (.broken, [])
  | fuel + 1, bytes =>
    match skipSpace bytes with
    | [] => (.broken, [])
    | byte :: rest =>
      if byte = 0x5D then (.closed, rest)
      else if byte = 0x2C then
        let (head, rest) := readValue fuel rest
        let (tail, rest) := readMoreItems fuel rest
        (.cons head tail, rest)
      else (.broken, [])

/-- The members of an object after its opening brace. -/
def readMembers : Nat → Bytes → Members × Bytes
  | 0, _ => (.broken, [])
  | fuel + 1, bytes =>
    match skipSpace bytes with
    | [] => (.broken, [])
    | byte :: rest =>
      if byte = 0x7D then (.closed, rest) else readMember fuel (byte :: rest)

/-- The members of an object after one of them. -/
def readMoreMembers : Nat → Bytes → Members × Bytes
  | 0, _ => (.broken, [])
  | fuel + 1, bytes =>
    match skipSpace bytes with
    | [] => (.broken, [])
    | byte :: rest =>
      if byte = 0x7D then (.closed, rest)
      else if byte = 0x2C then readMember fuel rest
      else (.broken, [])

/-- A member and those after it.  Its key counts even if no colon follows. -/
def readMember : Nat → Bytes → Members × Bytes
  | 0, _ => (.broken, [])
  | fuel + 1, bytes =>
    match skipSpace bytes with
    | [] => (.broken, [])
    | byte :: rest =>
      if byte = 0x22 then
        match scanString rest with
        | none => (.broken, [])
        | some (parts, rest) =>
          match skipSpace rest with
          | [] => (.cons (textOfParts? parts) .broken .broken, [])
          | colon :: rest =>
            if colon = 0x3A then
              let (value, rest) := readValue fuel rest
              let (tail, rest) := readMoreMembers fuel rest
              (.cons (textOfParts? parts) value tail, rest)
            else (.cons (textOfParts? parts) .broken .broken, [])
      else (.broken, [])

end

/-- The value that a document starts with, and the bytes after it.  Of two calls in a row one takes
a byte, so the fuel does not run out. -/
def read (bytes : Bytes) : Value × Bytes := readValue (2 * bytes.length + 2) bytes

end Json

end SealedEnvelope
