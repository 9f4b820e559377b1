import SealedEnvelope.Bytes.Basic

/-!
# UTF-8

Characters to bytes, and bytes to a list of pieces: the characters they spell, and the places where
they spell none.  Reading strictly and reading with replacement characters are two views of that
one list.
-/

set_option autoImplicit false

namespace SealedEnvelope

namespace Utf8

/-! ## Writing -/

/-- The one to four bytes of a character. -/
def encodeChar (c : Char) : Bytes :=
  let n := c.toNat
  if n < 0x80 then [UInt8.ofNat n]
  else if n < 0x800 then [UInt8.ofNat (0xC0 + n / 64), UInt8.ofNat (0x80 + n % 64)]
  else if n < 0x10000 then
    [UInt8.ofNat (0xE0 + n / 4096), UInt8.ofNat (0x80 + n / 64 % 64), UInt8.ofNat (0x80 + n % 64)]
  else
    [UInt8.ofNat (0xF0 + n / 262144), UInt8.ofNat (0x80 + n / 4096 % 64),
      UInt8.ofNat (0x80 + n / 64 % 64), UInt8.ofNat (0x80 + n % 64)]

/-- The bytes of a list of characters. -/
def encodeChars (chars : List Char) : Bytes := chars.flatMap encodeChar

/-- The bytes of a text. -/
def encode (text : String) : Bytes := encodeChars text.toList

@[simp] theorem encodeChars_nil : encodeChars [] = [] := rfl

@[simp] theorem encodeChars_cons (c : Char) (chars : List Char) :
    encodeChars (c :: chars) = encodeChar c ++ encodeChars chars := rfl

@[simp] theorem encodeChars_append (left right : List Char) :
    encodeChars (left ++ right) = encodeChars left ++ encodeChars right := by
  simp [encodeChars]

/-! ## Reading -/

/-- What the first byte of a character says about the bytes after it: how many there are, and the
range that the first of them is held to. -/
inductive Lead where
  | one
  | two
  | three (low high : UInt8)
  | four (low high : UInt8)
  | none
  deriving DecidableEq, Repr, Inhabited

/-- The ranges leave out overlong spellings, surrogates and numbers above the last character. -/
def lead (byte : UInt8) : Lead :=
  if byte < 0x80 then .one
  else if byte < 0xC2 then .none
  else if byte < 0xE0 then .two
  else if byte = 0xE0 then .three 0xA0 0xBF
  else if byte = 0xED then .three 0x80 0x9F
  else if byte < 0xF0 then .three 0x80 0xBF
  else if byte = 0xF0 then .four 0x90 0xBF
  else if byte < 0xF4 then .four 0x80 0xBF
  else if byte = 0xF4 then .four 0x80 0x8F
  else .none

/-- Whether a byte may stand inside a character. -/
def isTail (byte : UInt8) : Bool := 0x80 ≤ byte && byte ≤ 0xBF

/-- What stands at a place of a byte string. -/
inductive Piece where
  /-- A character. -/
  | char (c : Char)
  /-- `count` bytes that begin a character which the next byte does not continue. -/
  | broken (count : Nat)
  /-- `count` bytes that begin a character which the end of the string cuts off. -/
  | cut (count : Nat)
  deriving DecidableEq, Repr, Inhabited

/-- How many bytes a piece covers. -/
def Piece.size : Piece → Nat
  | .char c => (encodeChar c).length
  | .broken count => count
  | .cut count => count

/-- The number that the low six bits of a tail byte stand for. -/
def tailBits (byte : UInt8) : Nat := byte.toNat % 64

/-- The character spelled by two bytes. -/
def charOfTwo (a b : UInt8) : Char := Char.ofNat (a.toNat % 32 * 64 + tailBits b)

/-- The character spelled by three bytes. -/
def charOfThree (a b c : UInt8) : Char :=
  Char.ofNat ((a.toNat % 16 * 64 + tailBits b) * 64 + tailBits c)

/-- The character spelled by four bytes. -/
def charOfFour (a b c d : UInt8) : Char :=
  Char.ofNat (((a.toNat % 8 * 64 + tailBits b) * 64 + tailBits c) * 64 + tailBits d)

/-- The pieces of a byte string.  A broken piece is as long as a beginning of a character can be
matched, and reading goes on at the byte that broke it. -/
def pieces : Bytes → List Piece
  | [] => []
  | a :: rest =>
    match lead a with
    | .one => .char (Char.ofNat a.toNat) :: pieces rest
    | .none => .broken 1 :: pieces rest
    | .two =>
      match rest with
      | [] => [.cut 1]
      | b :: rest₁ =>
        if isTail b then .char (charOfTwo a b) :: pieces rest₁
        else .broken 1 :: pieces (b :: rest₁)
    | .three low high =>
      match rest with
      | [] => [.cut 1]
      | b :: rest₁ =>
        if low ≤ b && b ≤ high then
          match rest₁ with
          | [] => [.cut 2]
          | c :: rest₂ =>
            if isTail c then .char (charOfThree a b c) :: pieces rest₂
            else .broken 2 :: pieces (c :: rest₂)
        else .broken 1 :: pieces (b :: rest₁)
    | .four low high =>
      match rest with
      | [] => [.cut 1]
      | b :: rest₁ =>
        if low ≤ b && b ≤ high then
          match rest₁ with
          | [] => [.cut 2]
          | c :: rest₂ =>
            if isTail c then
              match rest₂ with
              | [] => [.cut 3]
              | d :: rest₃ =>
                if isTail d then .char (charOfFour a b c d) :: pieces rest₃
                else .broken 3 :: pieces (d :: rest₃)
            else .broken 2 :: pieces (c :: rest₂)
        else .broken 1 :: pieces (b :: rest₁)

/-- Why bytes are no text: where the text before the fault ends, and what follows there. -/
inductive Fault where
  | invalid (count index : Nat)
  | incomplete (index : Nat)
  deriving DecidableEq, Repr, Inhabited

/-- The wording of a fault. -/
def Fault.message : Fault → String
  | .invalid count index => s!"invalid utf-8 sequence of {count} bytes from index {index}"
  | .incomplete index => s!"incomplete utf-8 byte sequence from index {index}"

/-- The characters of a list of pieces that starts at `index`, or its first fault. -/
def charsOfPieces (index : Nat) : List Piece → Except Fault (List Char)
  | [] => .ok []
  | .char c :: rest =>
    match charsOfPieces (index + (encodeChar c).length) rest with
    | .ok chars => .ok (c :: chars)
    | .error fault => .error fault
  | .broken count :: _ => .error (.invalid count index)
  | .cut _ :: _ => .error (.incomplete index)

/-- The characters that bytes spell. -/
def decodeChars (bytes : Bytes) : Except Fault (List Char) := charsOfPieces 0 (pieces bytes)

/-- The text that bytes spell. -/
def decode (bytes : Bytes) : Except Fault String :=
  match decodeChars bytes with
  | .ok chars => .ok (String.ofList chars)
  | .error fault => .error fault

/-- The character that stands for a fault in text read with replacement. -/
def replacement : Char := '\uFFFD'

/-- The text that bytes spell, every fault replaced by one replacement character. -/
def decodeLossy (bytes : Bytes) : List Char :=
  (pieces bytes).map fun
    | .char c => c
    | .broken _ => replacement
    | .cut _ => replacement

end Utf8

end SealedEnvelope
