import SealedEnvelope.Error
import SealedEnvelope.Text.Utf8.Lemmas

/-!
# Hexadecimal texts (SPEC_FULL §3)

Digits of either case are read, and lower case is written: a value that was read from a text is
written as that text in lower case, and is read from no other text.
-/

set_option autoImplicit false

namespace SealedEnvelope

namespace Hex

/-- A byte that is a digit stands for a number below sixteen, which is written as that digit in
lower case. -/
theorem digit_of_value?_ofNat :
    ∀ n < 256, ∀ value ∈ value? (UInt8.ofNat n),
      value < 16 ∧ n < 0x80 ∧ digit value = (Char.ofNat n).toLower := by
  decide +kernel

theorem digit_of_value? {byte : UInt8} {value : Nat} (h : value? byte = some value) :
    value < 16 ∧ byte.toNat < 0x80 ∧ digit value = (Char.ofNat byte.toNat).toLower := by
  have each := digit_of_value?_ofNat byte.toNat byte.toNat_lt value
  rw [UInt8.ofNat_toNat] at each
  exact each h

/-- The digits of a byte are those of its two halves. -/
theorem digits_ofNat {h l : Nat} (hSmall : h < 16) (lSmall : l < 16) :
    digits (UInt8.ofNat (16 * h + l)) = [digit h, digit l] := by
  have number : (UInt8.ofNat (16 * h + l)).toNat = 16 * h + l :=
    Utf8.toNat_ofNat_byte (by omega)
  have highPart : (16 * h + l) / 16 = h := by omega
  have lowPart : (16 * h + l) % 16 = l := by omega
  rw [digits, number, highPart, lowPart]

/-- The digits of the byte that two digits stand for. -/
theorem digits_of_value? {high low : UInt8} {h l : Nat} (highValue : value? high = some h)
    (lowValue : value? low = some l) :
    digits (UInt8.ofNat (16 * h + l))
      = [(Char.ofNat high.toNat).toLower, (Char.ofNat low.toNat).toLower] := by
  obtain ⟨hSmall, _, highDigit⟩ := digit_of_value? highValue
  obtain ⟨lSmall, _, lowDigit⟩ := digit_of_value? lowValue
  rw [digits_ofNat hSmall lSmall, highDigit, lowDigit]

/-- Bytes that pairs of digits stand for are written as these digits in lower case, all of ASCII. -/
theorem encodeChars_of_decodePairs {index : Nat} {text bytes : Bytes}
    (even : text.length % 2 = 0) (h : decodePairs index text = .ok bytes) :
    (∀ byte ∈ text, byte.toNat < 0x80)
      ∧ encodeChars bytes = text.map fun byte => (Char.ofNat byte.toNat).toLower := by
  fun_induction decodePairs index text generalizing bytes with
  | case1 => contradiction
  | case2 => contradiction
  | case3 index high low rest h highValue l lowValue tail eq ih =>
    cases h
    obtain ⟨ascii, written⟩ := ih (by simp only [List.length_cons] at even; omega) eq
    constructor
    · intro byte mem
      rcases List.mem_cons.1 mem with rfl | mem
      · exact (digit_of_value? highValue).2.1
      · rcases List.mem_cons.1 mem with rfl | mem
        · exact (digit_of_value? lowValue).2.1
        · exact ascii byte mem
    · rw [encodeChars, List.flatMap_cons, digits_of_value? highValue lowValue]
      rw [encodeChars] at written
      rw [written]
      rfl
  | case4 => contradiction
  | case5 short _ few =>
    cases h
    rcases short with _ | ⟨only, _ | ⟨next, rest⟩⟩
    · exact ⟨fun _ mem => absurd mem List.not_mem_nil, rfl⟩
    · simp at even
    · exact (few only next rest rfl).elim

/-- Bytes that were read from a text are written as that text in lower case. -/
theorem encodeChars_of_decode {text : String} {bytes : Bytes} (h : decode text = .ok bytes) :
    encodeChars bytes = text.toList.map Char.toLower := by
  have even : (Utf8.encode text).length % 2 = 0 := by
    rw [length_of_decode h]
    omega
  rw [decode, decodeBytes, if_neg (by omega)] at h
  obtain ⟨ascii, written⟩ := encodeChars_of_decodePairs even h
  have chars := Utf8.ascii_of_encodeChars ascii
  rw [written, Utf8.encode, Utf8.encodeChars_of_ascii chars, List.map_map]
  refine List.map_congr_left fun c mem => ?_
  have small := chars c mem
  simp only [Function.comp_apply]
  rw [Utf8.toNat_ofNat_byte (by omega), Char.ofNat_toNat]

/-- A character of ASCII that is a digit in lower case stands for the number of that digit. -/
theorem value?_of_toLower_ofNat : ∀ m < 0x80, ∀ n < 16, (Char.ofNat m).toLower = digit n →
    value? (UInt8.ofNat m) = some n := by
  decide +kernel

theorem value?_of_toLower {c : Char} {n : Nat} (small : n < 16) (h : c.toLower = digit n) :
    c.toNat < 0x80 ∧ value? (UInt8.ofNat c.toNat) = some n := by
  have ascii : c.toNat < 0x80 := by
    by_cases upper : c.val ≥ 'A'.val ∧ c.val ≤ 'Z'.val
    · have high : c.toNat ≤ 'Z'.toNat := upper.2
      exact Nat.lt_of_le_of_lt high (by decide)
    · have same : c.toLower = c := dif_neg upper
      rw [← same, h]
      exact (value?_digit n small).1
  refine ⟨ascii, value?_of_toLower_ofNat c.toNat ascii n small ?_⟩
  rw [Char.ofNat_toNat]
  exact h

/-- Bytes are read from their digits in either case. -/
theorem decodePairs_of_toLower {chars : List Char} {bytes : Bytes} (index : Nat)
    (h : chars.map Char.toLower = encodeChars bytes) :
    decodePairs index (Utf8.encodeChars chars) = .ok bytes
      ∧ (Utf8.encodeChars chars).length = 2 * bytes.length := by
  induction bytes generalizing index chars with
  | nil =>
    obtain rfl := List.map_eq_nil_iff.1 h
    exact ⟨rfl, rfl⟩
  | cons byte bytes ih =>
    have small := byte.toNat_lt
    rw [encodeChars, List.flatMap_cons, digits, List.cons_append, List.singleton_append] at h
    obtain ⟨high, chars, rfl, highLower, h⟩ := List.map_eq_cons_iff.1 h
    obtain ⟨low, chars, rfl, lowLower, h⟩ := List.map_eq_cons_iff.1 h
    obtain ⟨highAscii, highValue⟩ := value?_of_toLower (by omega) highLower
    obtain ⟨lowAscii, lowValue⟩ := value?_of_toLower (by omega) lowLower
    obtain ⟨read, length⟩ := ih (index + 2) h
    have number : 16 * (byte.toNat / 16) + byte.toNat % 16 = byte.toNat := by omega
    rw [Utf8.encodeChars_cons, Utf8.encodeChars_cons, Utf8.encodeChar_of_ascii highAscii,
      Utf8.encodeChar_of_ascii lowAscii, List.singleton_append, List.singleton_append]
    constructor
    · simp only [decodePairs, highValue, lowValue, read, number, UInt8.ofNat_toNat]
    · simp only [List.length_cons, length]
      omega

/-- Bytes are read from their digits in either case, and from nothing else. -/
theorem decode_eq_ok {text : String} {bytes : Bytes} :
    decode text = .ok bytes ↔ text.toList.map Char.toLower = encodeChars bytes := by
  constructor
  · exact fun h => (encodeChars_of_decode h).symm
  · intro h
    obtain ⟨read, length⟩ := decodePairs_of_toLower 0 h
    rw [decode, Utf8.encode, decodeBytes, length, if_neg (by omega), read]

/-! ## Which texts are read -/

/-- Whether a character is a hexadecimal digit of either case. -/
def isDigit (c : Char) : Bool :=
  ('0' ≤ c && c ≤ '9') || ('a' ≤ c && c ≤ 'f') || ('A' ≤ c && c ≤ 'F')

theorem isDigit_ofNat_iff : ∀ m < 0x80,
    (isDigit (Char.ofNat m) = true ↔ ∃ n < 16, (Char.ofNat m).toLower = digit n) := by
  decide +kernel

theorem lt_of_isDigit {c : Char} (h : isDigit c = true) : c.toNat < 0x80 := by
  have below {high : Char} (le : c ≤ high) (ascii : high.toNat < 0x80) : c.toNat < 0x80 :=
    Nat.lt_of_le_of_lt le ascii
  simp only [isDigit, Bool.or_eq_true, Bool.and_eq_true, decide_eq_true_eq] at h
  rcases h with (⟨_, le⟩ | ⟨_, le⟩) | ⟨_, le⟩
  · exact below le (by decide)
  · exact below le (by decide)
  · exact below le (by decide)

/-- The digits are the characters that are a written digit in lower case. -/
theorem isDigit_iff {c : Char} : isDigit c = true ↔ ∃ n < 16, c.toLower = digit n := by
  constructor
  · intro h
    have written := (isDigit_ofNat_iff c.toNat (lt_of_isDigit h)).1
    rw [Char.ofNat_toNat] at written
    exact written h
  · rintro ⟨n, small, lower⟩
    have digit := (isDigit_ofNat_iff c.toNat (value?_of_toLower small lower).1).2
    rw [Char.ofNat_toNat] at digit
    exact digit ⟨n, small, lower⟩

/-- Every even number of written digits is the text of some bytes. -/
theorem exists_encodeChars_iff {chars : List Char} {count : Nat} :
    (∃ bytes : Bytes, bytes.length = count ∧ chars = encodeChars bytes)
      ↔ chars.length = 2 * count ∧ ∀ c ∈ chars, ∃ n < 16, c = digit n := by
  induction count generalizing chars with
  | zero =>
    constructor
    · rintro ⟨bytes, length, rfl⟩
      obtain rfl := List.eq_nil_of_length_eq_zero length
      exact ⟨rfl, fun _ mem => absurd mem List.not_mem_nil⟩
    · rintro ⟨length, _⟩
      exact ⟨[], rfl, List.eq_nil_of_length_eq_zero length⟩
  | succ count ih =>
    constructor
    · rintro ⟨bytes, length, rfl⟩
      obtain ⟨byte, bytes, rfl⟩ := List.exists_cons_of_length_eq_add_one length
      obtain ⟨others, all⟩ := ih.1 ⟨bytes, Nat.succ.inj length, rfl⟩
      have small := byte.toNat_lt
      constructor
      · rw [encodeChars] at others ⊢
        rw [List.flatMap_cons, List.length_append, others, digits]
        simp only [List.length_cons, List.length_nil]
        omega
      · intro c mem
        rw [encodeChars, List.flatMap_cons, digits, List.mem_append] at mem
        rcases mem with mem | mem
        · rcases List.mem_cons.1 mem with rfl | mem
          · exact ⟨_, by omega, rfl⟩
          · exact ⟨_, by omega, List.mem_singleton.1 mem⟩
        · exact all c mem
    · rintro ⟨length, all⟩
      obtain ⟨high, tail, rfl⟩ := List.exists_cons_of_length_eq_add_one length
      obtain ⟨low, chars, rfl⟩ := List.exists_cons_of_length_eq_add_one (Nat.succ.inj length)
      obtain ⟨h, hSmall, rfl⟩ := all high (by simp)
      obtain ⟨l, lSmall, rfl⟩ := all low (by simp)
      have others : chars.length = 2 * count := Nat.succ.inj (Nat.succ.inj length)
      obtain ⟨bytes, count, rfl⟩ := ih.2 ⟨others, fun c mem => all c (by simp [mem])⟩
      refine ⟨UInt8.ofNat (16 * h + l) :: bytes, congrArg Nat.succ count, ?_⟩
      rw [encodeChars, encodeChars, List.flatMap_cons, digits_ofNat hSmall lSmall]
      rfl

/-- As many bytes as are asked for are read from twice as many digits, and from nothing else. -/
theorem exists_decode_eq_ok_iff {text : String} {count : Nat} :
    (∃ bytes, decode text = .ok bytes ∧ bytes.length = count)
      ↔ text.toList.length = 2 * count ∧ ∀ c ∈ text.toList, isDigit c = true := by
  have written := @exists_encodeChars_iff (text.toList.map Char.toLower) count
  simp only [List.length_map, List.forall_mem_map, ← isDigit_iff] at written
  rw [← written]
  simp only [decode_eq_ok, and_comm]

end Hex

namespace Octets

/-- A value that was read from a text is written as that text in lower case. -/
theorem toHex_of_ofHex {role : Role} {text : String} {value : Octets role}
    (h : ofHex role text = .ok value) : value.toHex.toList = text.toList.map Char.toLower := by
  rw [toHex, Hex.encode, String.toList_ofList]
  exact Hex.encodeChars_of_decode (ofHex_eq_ok.1 h)

theorem toHex_of_parseHex {role : Role} {subject : Subject} {text : String} {value : Octets role}
    (h : parseHex role subject text = .ok value) :
    value.toHex.toList = text.toList.map Char.toLower :=
  toHex_of_ofHex (Outcome.mapError_eq_ok.1 h)

/-- A text spells a value if it is its digits in either case. -/
def SpelledBy {role : Role} (value : Octets role) (text : String) : Prop :=
  text.toList.map Char.toLower = value.toHex.toList

instance {role : Role} (value : Octets role) (text : String) : Decidable (value.SpelledBy text) :=
  inferInstanceAs (Decidable (_ = _))

/-- A value is read from the texts that spell it, and from no others. -/
theorem parseHex_eq_ok {role : Role} {subject : Subject} {text : String} {value : Octets role} :
    parseHex role subject text = .ok value ↔ value.SpelledBy text := by
  constructor
  · exact fun h => (toHex_of_parseHex h).symm
  · intro h
    rw [SpelledBy, toHex, Hex.encode, String.toList_ofList] at h
    exact Outcome.mapError_eq_ok.2 (ofHex_eq_ok.2 (Hex.decode_eq_ok.2 h))

/-- A value is read from twice as many digits as it has bytes, and from nothing else. -/
theorem exists_ofHex_eq_ok_iff {role : Role} {text : String} :
    (∃ value, ofHex role text = .ok value)
      ↔ text.toList.length = 2 * role.size ∧ ∀ c ∈ text.toList, Hex.isDigit c = true := by
  rw [← Hex.exists_decode_eq_ok_iff]
  constructor
  · rintro ⟨value, h⟩
    exact ⟨value.toList, ofHex_eq_ok.1 h, value.length_toList⟩
  · rintro ⟨bytes, decoded, length⟩
    exact ⟨⟨bytes, length⟩, ofHex_eq_ok.2 decoded⟩

end Octets

end SealedEnvelope
