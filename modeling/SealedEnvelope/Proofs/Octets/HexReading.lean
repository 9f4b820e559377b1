import SealedEnvelope.Ascending
import SealedEnvelope.Cipher.Error
import SealedEnvelope.Proofs.Octets.HexText

/-!
# Reading and comparing hexadecimal texts (SPEC_FULL §3)

A text is refused for an odd number of bytes, else for its first byte that is no digit, else for the
number of bytes that it stands for, and for nothing else.  Values compare as their texts do.
-/

set_option autoImplicit false

namespace SealedEnvelope

namespace Hex

/-! ## Why a text is refused -/

/-- Whether a byte is a hexadecimal digit of ASCII, of either case. -/
def isDigitByte (byte : UInt8) : Bool := isDigit (Char.ofNat byte.toNat)

/-- The fault of a text in bytes: an odd number of them, or else the first one that is no digit. -/
inductive FaultOf : Bytes → Fault → Prop where
  | oddLength {text : Bytes} (odd : text.length % 2 = 1) : FaultOf text .oddLength
  | invalidByte {front back : Bytes} {byte : UInt8}
      (even : (front ++ byte :: back).length % 2 = 0)
      (digits : ∀ digit ∈ front, isDigitByte digit = true) (stray : isDigitByte byte = false) :
      FaultOf (front ++ byte :: back) (.invalidByte byte front.length)

/-- A text has a fault if its number of bytes is odd or one of them is no digit. -/
theorem exists_faultOf_iff {text : Bytes} :
    (∃ fault, FaultOf text fault)
      ↔ text.length % 2 = 1 ∨ ∃ byte ∈ text, isDigitByte byte = false := by
  constructor
  · rintro ⟨fault, odd | ⟨_, _, stray⟩⟩
    · exact .inl odd
    · exact .inr ⟨_, List.mem_append_right _ List.mem_cons_self, stray⟩
  · intro wrong
    by_cases odd : text.length % 2 = 1
    · exact ⟨_, .oddLength odd⟩
    · obtain ⟨byte, mem, stray⟩ := wrong.resolve_left odd
      have some : (text.find? fun byte => !isDigitByte byte).isSome = true :=
        List.find?_isSome.2 ⟨byte, mem, congrArg not stray⟩
      obtain ⟨first, found⟩ := Option.isSome_iff_exists.1 some
      obtain ⟨stray, front, back, rfl, digits⟩ := List.find?_eq_some_iff_append.1 found
      refine ⟨_, .invalidByte (by omega) (fun digit mem => ?_) ?_⟩
      · simpa using digits digit mem
      · simpa using stray

theorem isDigit_of_value?_ofNat : ∀ n < 256,
    (value? (UInt8.ofNat n)).isSome = isDigit (Char.ofNat n) := by
  decide +kernel

theorem isSome_value? (byte : UInt8) : (value? byte).isSome = isDigitByte byte := by
  have each := isDigit_of_value?_ofNat byte.toNat byte.toNat_lt
  rwa [UInt8.ofNat_toNat] at each

theorem value?_of_stray {byte : UInt8} (stray : isDigitByte byte = false) : value? byte = none := by
  rw [← isSome_value?] at stray
  exact Option.not_isSome_iff_eq_none.1 (by simp [stray])

theorem exists_value?_of_digit {byte : UInt8} (digit : isDigitByte byte = true) :
    ∃ n, value? byte = some n := by
  rw [← isSome_value?] at digit
  exact Option.isSome_iff_exists.1 digit

/-- Of an even number of bytes the first one that is no digit is refused. -/
theorem decodePairs_of_stray (index : Nat) (front : Bytes) {back : Bytes} {byte : UInt8}
    (even : (front ++ byte :: back).length % 2 = 0)
    (digits : ∀ digit ∈ front, isDigitByte digit = true) (stray : isDigitByte byte = false) :
    decodePairs index (front ++ byte :: back)
      = .error (.invalidByte byte (index + front.length)) := by
  -- two bytes at a time, as they are read: the stray one is the first or the second of its pair
  match front with
  | [] =>
    match back with
    | [] => simp at even
    | low :: rest =>
      rw [List.nil_append, decodePairs, value?_of_stray stray]
      rfl
  | [high] =>
    obtain ⟨h, highValue⟩ := exists_value?_of_digit (digits high List.mem_cons_self)
    rw [List.singleton_append, decodePairs, highValue, value?_of_stray stray]
    rfl
  | high :: low :: front =>
    obtain ⟨highDigit, lowDigit, others⟩ := by simpa only [List.forall_mem_cons] using digits
    obtain ⟨h, highValue⟩ := exists_value?_of_digit highDigit
    obtain ⟨l, lowValue⟩ := exists_value?_of_digit lowDigit
    have even : (front ++ byte :: back).length % 2 = 0 := by
      simp only [List.cons_append, List.length_cons] at even
      omega
    have ih := decodePairs_of_stray (index + 2) front even others stray
    rw [List.cons_append, List.cons_append, decodePairs, highValue, lowValue, ih]
    simp only [List.length_cons]
    congr 2
    omega

theorem lt_of_isDigitByte {byte : UInt8} (digit : isDigitByte byte = true) :
    byte.toNat < 0x80 := by
  obtain ⟨n, value⟩ := exists_value?_of_digit digit
  exact (digit_of_value? value).2.1

/-- The bytes of a text are digits exactly if its characters are. -/
theorem forall_isDigitByte_iff {chars : List Char} :
    (∀ byte ∈ Utf8.encodeChars chars, isDigitByte byte = true)
      ↔ ∀ c ∈ chars, isDigit c = true := by
  have of_ascii (ascii : ∀ c ∈ chars, c.toNat < 0x80) :
      (∀ byte ∈ Utf8.encodeChars chars, isDigitByte byte = true)
        ↔ ∀ c ∈ chars, isDigit c = true := by
    rw [Utf8.encodeChars_of_ascii ascii, List.forall_mem_map]
    refine forall_congr' fun c => forall_congr' fun mem => ?_
    have small := ascii c mem
    rw [isDigitByte, Utf8.toNat_ofNat_byte (by omega), Char.ofNat_toNat]
  constructor
  · intro digits
    have ascii := Utf8.ascii_of_encodeChars fun byte mem => lt_of_isDigitByte (digits byte mem)
    exact (of_ascii ascii).1 digits
  · intro digits
    exact (of_ascii fun c mem => lt_of_isDigit (digits c mem)).2 digits

/-- Digits are characters of one byte. -/
theorem length_encodeChars_of_digits {chars : List Char} (digits : ∀ c ∈ chars, isDigit c = true) :
    (Utf8.encodeChars chars).length = chars.length := by
  rw [Utf8.encodeChars_of_ascii fun c mem => lt_of_isDigit (digits c mem), List.length_map]

/-- An even number of digits is read. -/
theorem exists_decode_of_digits {text : String} {count : Nat}
    (length : (Utf8.encode text).length = 2 * count)
    (digits : ∀ byte ∈ Utf8.encode text, isDigitByte byte = true) :
    ∃ bytes, decode text = .ok bytes ∧ bytes.length = count := by
  have chars := forall_isDigitByte_iff.1 digits
  rw [Utf8.encode, length_encodeChars_of_digits chars] at length
  exact exists_decode_eq_ok_iff.2 ⟨length, chars⟩

/-- What is read is an even number of digits. -/
theorem digits_of_decode {text : String} {bytes : Bytes} (h : decode text = .ok bytes) :
    (Utf8.encode text).length = 2 * bytes.length
      ∧ ∀ byte ∈ Utf8.encode text, isDigitByte byte = true :=
  ⟨length_of_decode h, forall_isDigitByte_iff.2 (exists_decode_eq_ok_iff.1 ⟨bytes, h, rfl⟩).2⟩

theorem decodeBytes_of_faultOf {text : Bytes} {fault : Fault} (h : FaultOf text fault) :
    decodeBytes text = .error fault := by
  cases h with
  | oddLength odd => exact if_pos odd
  | invalidByte even digits stray =>
    rw [decodeBytes, if_neg (by omega), decodePairs_of_stray 0 _ even digits stray, Nat.zero_add]

/-- A text is refused for the fault that it has. -/
theorem decode_eq_error {text : String} {fault : Fault} :
    decode text = .error fault ↔ FaultOf (Utf8.encode text) fault := by
  constructor
  · intro refused
    by_cases faulty : ∃ fault, FaultOf (Utf8.encode text) fault
    · obtain ⟨other, isOther⟩ := faulty
      have same := (decodeBytes_of_faultOf isOther).symm.trans refused
      rwa [Except.error.inj same] at isOther
    · -- a text without a fault would have been read
      rw [exists_faultOf_iff] at faulty
      have digits : ∀ byte ∈ Utf8.encode text, isDigitByte byte = true := by
        intro byte mem
        exact eq_true_of_ne_false fun stray => faulty (.inr ⟨byte, mem, stray⟩)
      have even : (Utf8.encode text).length = 2 * ((Utf8.encode text).length / 2) := by
        have := mt Or.inl faulty
        omega
      obtain ⟨bytes, read, _⟩ := exists_decode_of_digits even digits
      cases read.symm.trans refused
  · exact decodeBytes_of_faultOf

/-! ## The order of texts -/

theorem compare_digit : ∀ m < 16, ∀ n < 16,
    compare (UInt8.ofNat (digit m).toNat) (UInt8.ofNat (digit n).toNat) = compare m n := by
  decide

/-- Bytes are in the order of their numbers. -/
theorem compare_toNat (left right : UInt8) : compare left right = compare left.toNat right.toNat := by
  simp only [compare, compareOfLessAndEq, UInt8.lt_iff_toNat_lt, UInt8.toNat_inj]

/-- Numbers are in the order of their high halves, and of their low ones if these are the same. -/
theorem compare_halves (m n : Nat) :
    compare m n = (compare (m / 16) (n / 16)).then (compare (m % 16) (n % 16)) := by
  rcases Nat.lt_trichotomy (m / 16) (n / 16) with less | same | more
  · rw [Nat.compare_eq_lt.2 less, Nat.compare_eq_lt.2 (by omega)]
    rfl
  · have less : m < n ↔ m % 16 < n % 16 := by omega
    have more : n < m ↔ n % 16 < m % 16 := by omega
    rw [Nat.compare_eq_eq.2 same, Ordering.eq_then]
    simp only [Nat.compare_eq_ite_lt, less, more]
  · rw [Nat.compare_eq_gt.2 more, Nat.compare_eq_gt.2 (by omega)]
    rfl

/-- Byte strings are in the order of their texts: the first byte in which they differ is the first
in which one of the two digits does. -/
theorem compare_encodeChars (left right : Bytes) :
    compare (Utf8.encodeChars (encodeChars left)) (Utf8.encodeChars (encodeChars right))
      = compare left right := by
  induction left generalizing right with
  | nil =>
    cases right with
    | nil => rfl
    | cons b right =>
      rw [encodeChars_cons_digits]
      rfl
  | cons a left ih =>
    cases right with
    | nil =>
      rw [encodeChars_cons_digits]
      rfl
    | cons b right =>
      have aSmall := a.toNat_lt
      have bSmall := b.toNat_lt
      have high := compare_digit (a.toNat / 16) (by omega) (b.toNat / 16) (by omega)
      have low := compare_digit (a.toNat % 16) (by omega) (b.toNat % 16) (by omega)
      rw [encodeChars_cons_digits, encodeChars_cons_digits, List.compare_cons_cons,
        List.compare_cons_cons, List.compare_cons_cons, ih, high, low, ← Ordering.then_assoc,
        ← compare_halves, ← compare_toNat]

end Hex

namespace Octets

variable {role : Role} {text : String}

/-- A text is refused for its digits exactly if there is a fault in them. -/
theorem ofHex_eq_hex_error {fault : Hex.Fault} :
    ofHex role text = .error (.hex fault) ↔ Hex.FaultOf (Utf8.encode text) fault := by
  rw [← Hex.decode_eq_error]
  cases decoded : Hex.decode text with
  | error other =>
    rw [ofHex, decoded]
    simp only [Except.error.injEq, Fault.hex.injEq]
  | ok bytes =>
    rw [ofHex, decoded]
    constructor
    · intro h
      simp only [ofBytes] at h
      split at h
      · cases h
      · cases h
    · intro h
      cases h

/-- A text is refused for its length exactly if it is of digits, but stands for another number of
bytes. -/
theorem ofHex_eq_length_error {expected actual : Nat} :
    ofHex role text = .error (.length expected actual)
      ↔ expected = role.size ∧ (Utf8.encode text).length = 2 * actual
        ∧ (∀ byte ∈ Utf8.encode text, Hex.isDigitByte byte = true) ∧ actual ≠ role.size := by
  constructor
  · intro h
    unfold ofHex at h
    split at h
    · rename_i bytes decoded
      unfold ofBytes at h
      split at h
      · cases h
      · rename_i other
        cases h
        obtain ⟨length, digits⟩ := Hex.digits_of_decode decoded
        exact ⟨rfl, length, digits, other⟩
    · cases h
  · rintro ⟨rfl, length, digits, other⟩
    obtain ⟨bytes, decoded, rfl⟩ := Hex.exists_decode_of_digits length digits
    rw [ofHex, decoded]
    exact dif_neg other

/-- A reader of values from texts that takes twice as many digits of either case as a value has
bytes, and tells of any other text why it is refused. -/
structure ReadsExactly {ε : Type} (role : Role) (read : String → Except ε (Octets role))
    (hexError : Hex.Fault → ε) (lengthError : Nat → ε) : Prop where
  read_toHex : ∀ value : Octets role, read value.toHex = .ok value
  accepts : ∀ text, (∃ value, read text = .ok value)
    ↔ text.toList.length = 2 * role.size ∧ ∀ c ∈ text.toList, Hex.isDigit c = true
  toHex_read : ∀ text value, read text = .ok value →
    value.toHex.toList = text.toList.map Char.toLower
  refusesDigits : ∀ text, (∃ fault, read text = .error (hexError fault))
    ↔ (Utf8.encode text).length % 2 = 1
      ∨ ∃ byte ∈ Utf8.encode text, Hex.isDigitByte byte = false
  tellsFault : ∀ text fault,
    read text = .error (hexError fault) ↔ Hex.FaultOf (Utf8.encode text) fault
  refusesLength : ∀ text actual, read text = .error (lengthError actual)
    ↔ (Utf8.encode text).length = 2 * actual
      ∧ (∀ byte ∈ Utf8.encode text, Hex.isDigitByte byte = true) ∧ actual ≠ role.size

/-- What the errors are called makes no difference to what is read. -/
theorem readsExactly_mapError {ε : Type} (role : Role) {change : Fault → ε}
    (injective : ∀ left right, change left = change right → left = right) :
    ReadsExactly role (fun text => (ofHex role text).mapError change)
      (fun fault => change (.hex fault)) (fun actual => change (.length role.size actual)) where
  read_toHex value := Outcome.mapError_eq_ok.2 (ofHex_toHex value)
  accepts text := by
    rw [← exists_ofHex_eq_ok_iff]
    simp only [Outcome.mapError_eq_ok]
  toHex_read text value h := toHex_of_ofHex (Outcome.mapError_eq_ok.1 h)
  refusesDigits text := by
    rw [← Hex.exists_faultOf_iff]
    simp only [Outcome.mapError_eq_error_of_injective injective, ofHex_eq_hex_error]
  tellsFault text fault := by
    rw [Outcome.mapError_eq_error_of_injective injective, ofHex_eq_hex_error]
  refusesLength text actual := by
    rw [Outcome.mapError_eq_error_of_injective injective, ofHex_eq_length_error]
    exact and_iff_right rfl

theorem ofFault_injective (subject : Subject) (left right : Fault)
    (h : Error.ofFault subject left = Error.ofFault subject right) : left = right := by
  cases left <;> cases right <;> simp_all [Error.ofFault]

theorem cipherError_injective (role : Role) (left right : Fault)
    (h : CipherError.ofFault role left = CipherError.ofFault role right) : left = right := by
  cases role <;> cases left <;> cases right <;> simp_all [CipherError.ofFault]

/-- Values are in the order of the bytes of their texts. -/
theorem compare_toHex (left right : Octets role) :
    Ord.compare left right = Ord.compare (Utf8.encode left.toHex) (Utf8.encode right.toHex) := by
  rw [toHex, toHex, Hex.encode, Hex.encode, Utf8.encode, Utf8.encode, String.toList_ofList,
    String.toList_ofList, Hex.compare_encodeChars]
  rfl

/-- Values that ascend have texts that ascend. -/
theorem isAscending_map_toHex {values : List (Octets role)} (h : Ascending.IsAscending values) :
    Ascending.IsAscending (values.map fun value => Utf8.encode value.toHex) := by
  refine List.pairwise_map.2 (List.Pairwise.imp (fun {left right} less => ?_) h)
  rwa [← compare_toHex]

/-- Values of each role are read from twice as many digits as they have bytes and from nothing else,
whether the reader answers with the errors of the protocol or with those of the ciphers.  Of a text
that is refused the error tells that its number of bytes is odd, or else the first byte that is no
digit, or else the number of bytes that it stands for.  Two values compare as the bytes of their
texts do. -/
theorem readsExactly_and_compare_eq (role : Role) :
    (∀ subject, ReadsExactly role (parseHex role subject) (.notHex subject)
      (.wrongLength subject role.size))
    ∧ ReadsExactly role (materialOfHex role) .hex
      (fun actual => CipherError.ofFault role (.length role.size actual))
    ∧ ∀ left right : Octets role,
      Ord.compare left right = Ord.compare (Utf8.encode left.toHex) (Utf8.encode right.toHex) := by
  refine ⟨fun subject => ?_, ?_, compare_toHex⟩
  · exact readsExactly_mapError role (ofFault_injective subject)
  · exact readsExactly_mapError role (cipherError_injective role)

/-- An identifier in mixed case; texts that are none: one of three characters in four bytes, one of two
characters in three bytes, and the digits of two bytes, which are no nonce either; and two
identifiers that differ first in the digits `9` and `a`. -/
theorem readsExactly_and_compare_eq_mixed_case :
    let low : MessageId := ⟨[0x01, 0x23, 0x45, 0x67, 0x89, 0xAB, 0xCD, 0x9F], rfl⟩
    let high : MessageId := ⟨[0x01, 0x23, 0x45, 0x67, 0x89, 0xAB, 0xCD, 0xA0], rfl⟩
    (∃ value, parseHex .messageId .messageId "0123456789aBcD9f" = .ok value
        ∧ value.toHex.toList = "0123456789abcd9f".toList)
      ∧ parseHex .messageId .messageId "0é0" = .error (.notHex .messageId (.invalidByte 0xC3 1))
      ∧ parseHex .messageId .messageId "0é" = .error (.notHex .messageId .oddLength)
      ∧ parseHex .messageId .messageId "aB0c" = .error (.wrongLength .messageId 8 2)
      ∧ materialOfHex .nonce "aB0c" = .error (.nonceLength 24 2)
      ∧ Ord.compare (Utf8.encode low.toHex) (Utf8.encode high.toHex) = .lt := by
  intro low high
  obtain ⟨ids, _, order⟩ := readsExactly_and_compare_eq .messageId
  obtain ⟨_, nonces, _⟩ := readsExactly_and_compare_eq .nonce
  have exactly := ids .messageId
  have twoBytes : ∀ byte ∈ Utf8.encode "aB0c", Hex.isDigitByte byte = true := by
    rw [← List.all_eq_true]
    decide +kernel
  refine ⟨?_, ?_, ?_, ?_, ?_, ?_⟩
  · have digits : "0123456789aBcD9f".toList.all Hex.isDigit = true := by decide +kernel
    obtain ⟨value, read⟩ := (exactly.accepts _).2 ⟨rfl, List.all_eq_true.1 digits⟩
    exact ⟨value, read, exactly.toHex_read _ value read⟩
  · have fault : Hex.FaultOf ([0x30] ++ 0xC3 :: [0xA9, 0x30]) (.invalidByte 0xC3 1) :=
      .invalidByte rfl (List.forall_mem_singleton.2 rfl) rfl
    exact (exactly.tellsFault _ _).2 fault
  · exact (exactly.tellsFault _ _).2 (.oddLength rfl)
  · exact (exactly.refusesLength _ 2).2 ⟨rfl, twoBytes, nofun⟩
  · exact (nonces.refusesLength _ 2).2 ⟨rfl, twoBytes, nofun⟩
  · rw [← order]
    rfl

end Octets

end SealedEnvelope
