import SealedEnvelope.Text.Utf8
import SealedEnvelope.Text.Quoted

/-!
# Bytes as hexadecimal text (SPEC_FULL §3)

Two digits a byte, the high one first: lower case when written, either case when read.  Bytes are
read back from their text.
-/

set_option autoImplicit false

namespace SealedEnvelope

namespace Hex

/-! ## Writing -/

/-- The digit of a number below sixteen. -/
def digit (n : Nat) : Char := Char.ofNat (if n < 10 then 48 + n else 87 + n)

/-- The two digits of a byte. -/
def digits (byte : UInt8) : List Char := [digit (byte.toNat / 16), digit (byte.toNat % 16)]

/-- The digits of a byte string. -/
def encodeChars (bytes : Bytes) : List Char := bytes.flatMap digits

/-- The hexadecimal text of a byte string. -/
def encode (bytes : Bytes) : String := String.ofList (encodeChars bytes)

/-! ## Reading -/

/-- Why a text is no hexadecimal text. -/
inductive Fault where
  | oddLength
  | invalidByte (byte : UInt8) (index : Nat)
  deriving DecidableEq, Repr, Inhabited

/-- The wording of a fault. -/
def Fault.message : Fault → String
  | .oddLength => "Odd number of digits"
  | .invalidByte byte index =>
    let shown := Text.quotedLetter (Char.ofNat byte.toNat)
    s!"Invalid character {shown} at position {index}"

/-- The number that a byte of hexadecimal text stands for. -/
def value? (byte : UInt8) : Option Nat :=
  if 48 ≤ byte && byte ≤ 57 then some (byte.toNat - 48)
  else if 97 ≤ byte && byte ≤ 102 then some (byte.toNat - 87)
  else if 65 ≤ byte && byte ≤ 70 then some (byte.toNat - 55)
  else none

/-- The bytes that pairs of digits stand for, the first digit being at `index`. -/
def decodePairs (index : Nat) : Bytes → Except Fault Bytes
  | high :: low :: rest =>
    match value? high with
    | none => .error (.invalidByte high index)
    | some h =>
      match value? low with
      | none => .error (.invalidByte low (index + 1))
      | some l =>
        match decodePairs (index + 2) rest with
        | .ok bytes => .ok (UInt8.ofNat (16 * h + l) :: bytes)
        | .error fault => .error fault
  | _ => .ok []

/-- The bytes that hexadecimal text in UTF-8 stands for.  An odd length is noticed first. -/
def decodeBytes (text : Bytes) : Except Fault Bytes :=
  if text.length % 2 = 1 then .error .oddLength else decodePairs 0 text

/-- The bytes that a hexadecimal text stands for. -/
def decode (text : String) : Except Fault Bytes := decodeBytes (Utf8.encode text)

/-! ## Reading what was written -/

theorem value?_digit :
    ∀ n < 16, (digit n).toNat < 128 ∧ value? (UInt8.ofNat (digit n).toNat) = some n := by
  decide

/-- The bytes of a text that begins with the digits of a byte. -/
theorem encodeChars_cons_digits (byte : UInt8) (bytes : Bytes) :
    Utf8.encodeChars (encodeChars (byte :: bytes))
      = UInt8.ofNat (digit (byte.toNat / 16)).toNat :: UInt8.ofNat (digit (byte.toNat % 16)).toNat
        :: Utf8.encodeChars (encodeChars bytes) := by
  have := byte.toNat_lt
  have high := (value?_digit (byte.toNat / 16) (by omega)).1
  have low := (value?_digit (byte.toNat % 16) (by omega)).1
  simp only [encodeChars, List.flatMap_cons, digits, List.cons_append, List.nil_append,
    Utf8.encodeChars_cons, Utf8.encodeChar, if_pos high, if_pos low]

theorem decodePairs_encodeChars (index : Nat) (bytes : Bytes) :
    decodePairs index (Utf8.encodeChars (encodeChars bytes)) = .ok bytes := by
  induction bytes generalizing index with
  | nil => rfl
  | cons byte bytes ih =>
    have := byte.toNat_lt
    have high := (value?_digit (byte.toNat / 16) (by omega)).2
    have low := (value?_digit (byte.toNat % 16) (by omega)).2
    have number : 16 * (byte.toNat / 16) + byte.toNat % 16 = byte.toNat := by omega
    simp only [encodeChars_cons_digits, decodePairs, high, low, ih, number, UInt8.ofNat_toNat]

theorem length_encodeChars (bytes : Bytes) :
    (Utf8.encodeChars (encodeChars bytes)).length = 2 * bytes.length := by
  induction bytes with
  | nil => rfl
  | cons byte bytes ih =>
    simp only [encodeChars_cons_digits, List.length_cons, ih]
    omega

/-- Bytes are read back from their text. -/
theorem decode_encode (bytes : Bytes) : decode (encode bytes) = .ok bytes := by
  rw [decode, encode, Utf8.encode, String.toList_ofList, decodeBytes, length_encodeChars,
    if_neg (by omega), decodePairs_encodeChars]

/-! ## Lengths -/

theorem length_of_decodePairs {index : Nat} {text bytes : Bytes} (even : text.length % 2 = 0)
    (h : decodePairs index text = .ok bytes) : text.length = 2 * bytes.length := by
  fun_induction decodePairs index text generalizing bytes with
  | case1 => contradiction
  | case2 => contradiction
  | case3 index high low rest _ _ _ _ tail eq ih =>
    cases h
    have := ih (by simp only [List.length_cons] at even; omega) eq
    simp only [List.length_cons]
    omega
  | case4 => contradiction
  | case5 short _ few =>
    cases h
    rcases short with _ | ⟨only, _ | ⟨next, rest⟩⟩
    · rfl
    · simp at even
    · exact (few only next rest rfl).elim

/-- Two bytes of text stand for one. -/
theorem length_of_decode {text : String} {bytes : Bytes} (h : decode text = .ok bytes) :
    (Utf8.encode text).length = 2 * bytes.length := by
  unfold decode decodeBytes at h
  split at h
  · contradiction
  · rename_i odd
    exact length_of_decodePairs (by omega) h

end Hex

end SealedEnvelope
