import SealedEnvelope.Proofs.Json.Grammar

/-!
# Nothing else is read

A text that is read to its end is a document, and the value that is read is the one that it denotes.
So the grammar says all that the reader accepts.
-/

set_option autoImplicit false

namespace SealedEnvelope

namespace Json

/-! ## Texts after a start of ASCII -/

/-- Bytes that are the whole of a text. -/
def IsText (bytes : Bytes) : Prop := ∃ chars, bytes = Utf8.encodeChars chars

theorem isText_of_cons {byte : UInt8} {rest : Bytes} (text : IsText (byte :: rest))
    (ascii : byte.toNat < 0x80) : IsText rest := by
  obtain ⟨chars, encoded⟩ := text
  cases chars with
  | nil => cases encoded
  | cons c chars =>
    rw [Utf8.encodeChars_cons] at encoded
    have small : c.toNat < 0x80 := by
      refine Nat.lt_of_not_le fun wide => ?_
      cases start : Utf8.encodeChar c with
      | nil => exact Utf8.encodeChar_ne_nil c start
      | cons first others =>
        rw [start] at encoded
        cases encoded
        have high := Utf8.le_of_mem_encodeChar wide (start ▸ List.mem_cons_self)
        omega
    rw [Utf8.encodeChar_of_ascii small, List.singleton_append] at encoded
    exact ⟨chars, (List.cons.inj encoded).2⟩

theorem isText_of_append {head rest : Bytes} (text : IsText (head ++ rest))
    (ascii : ∀ byte ∈ head, byte.toNat < 0x80) : IsText rest := by
  induction head with
  | nil => exact text
  | cons byte head ih =>
    exact ih (isText_of_cons text (ascii byte List.mem_cons_self))
      fun other mem => ascii other (List.mem_cons_of_mem byte mem)

/-! ## Spaces -/

theorem lt_of_mem_blank {space : Bytes} (blank : IsBlank space) {byte : UInt8}
    (mem : byte ∈ space) : byte.toNat < 0x80 := by
  rcases blank byte mem with rfl | rfl | rfl | rfl <;> decide

theorem isBlank_append {left right : Bytes} (first : IsBlank left) (second : IsBlank right) :
    IsBlank (left ++ right) :=
  fun byte mem => (List.mem_append.1 mem).elim (first byte) (second byte)

/-- What is passed over are spaces. -/
theorem exists_blank (bytes : Bytes) : ∃ space, IsBlank space ∧ bytes = space ++ skipSpace bytes :=
  ⟨bytes.takeWhile isSpace,
    fun byte mem => isSpace_iff.1 (List.all_eq_true.1 List.all_takeWhile byte mem),
    List.takeWhile_append_dropWhile.symm⟩

theorem isBlank_of_skipSpace {bytes : Bytes} (h : skipSpace bytes = []) : IsBlank bytes := by
  obtain ⟨space, blank, cut⟩ := exists_blank bytes
  rw [h, List.append_nil] at cut
  rw [cut]
  exact blank

theorem isText_skipSpace {bytes : Bytes} (text : IsText bytes) : IsText (skipSpace bytes) := by
  obtain ⟨space, blank, cut⟩ := exists_blank bytes
  rw [cut] at text
  exact isText_of_append text fun _ => lt_of_mem_blank blank

/-! ## Strings -/

theorem mem_escapes_of_letterEscape?_ofNat : ∀ n < 256,
    (letterEscape? (UInt8.ofNat n)).isSome = true →
      UInt8.ofNat n ∈ escapes.map fun listed => UInt8.ofNat listed.1.toNat := by
  decide +kernel

/-- A letter that is read as an escape is listed. -/
theorem mem_escapes_of_letterEscape? {letter escaped : UInt8}
    (h : letterEscape? letter = some escaped) :
    ∃ listed ∈ escapes, letter = UInt8.ofNat listed.1.toNat := by
  have each := mem_escapes_of_letterEscape?_ofNat letter.toNat letter.toNat_lt
  rw [UInt8.ofNat_toNat, h] at each
  obtain ⟨listed, mem, same⟩ := List.mem_map.1 (each rfl)
  exact ⟨listed, mem, same.symm⟩

theorem lt_of_value? {byte : UInt8} {value : Nat} (h : Hex.value? byte = some value) :
    byte.toNat < 0x80 := by
  have each : ∀ n < 256, (Hex.value? (UInt8.ofNat n)).isSome = true → n < 0x80 := by decide +kernel
  refine each byte.toNat byte.toNat_lt ?_
  rw [UInt8.ofNat_toNat, h]
  rfl

theorem lt_of_mem_bytes_of_not_plain {piece : Piece}
    (h : ∀ c allowed, piece ≠ .plain c allowed) {byte : UInt8} (mem : byte ∈ piece.bytes) :
    byte.toNat < 0x80 := by
  cases piece with
  | plain c allowed => exact absurd rfl (h c allowed)
  | escape letter c listed =>
    have ascii := (letterEscape?_of_mem_escapes _ listed).1
    rw [Piece.bytes, Utf8.encodeChar_of_ascii ascii] at mem
    rcases List.mem_cons.1 mem with rfl | mem
    · decide
    · rw [List.mem_singleton.1 mem, Utf8.toNat_ofNat_byte (by omega)]
      exact ascii
  | code a b c d =>
    simp only [Piece.bytes, List.mem_cons, List.not_mem_nil, or_false] at mem
    rcases mem with rfl | rfl | rfl | rfl | rfl | rfl
    · decide
    · decide
    · exact lt_of_value? a.reads
    · exact lt_of_value? b.reads
    · exact lt_of_value? c.reads
    · exact lt_of_value? d.reads

theorem exists_hexDigits_of_codeOf? {a b c d : UInt8} {code : Nat}
    (h : codeOf? a b c d = some code) :
    ∃ first second third fourth : HexDigit,
      first.byte = a ∧ second.byte = b ∧ third.byte = c ∧ fourth.byte = d := by
  unfold codeOf? at h
  split at h
  · rename_i first second third fourth
    exact ⟨⟨a, _, first⟩, ⟨b, _, second⟩, ⟨c, _, third⟩, ⟨d, _, fourth⟩, rfl, rfl, rfl, rfl⟩
  · cases h

/-- A backslash starts a piece, after which the string goes on. -/
theorem exists_piece_of_scanString {bytes rest : Bytes} {parts : List Part}
    (h : scanString (0x5C :: bytes) = some (parts, rest)) :
    ∃ (piece : Piece) (more : Bytes) (others : List Part),
      (∀ c allowed, piece ≠ .plain c allowed) ∧ 0x5C :: bytes = piece.bytes ++ more
        ∧ scanString more = some (others, rest) := by
  rw [scanString.eq_def] at h
  simp only [show ¬ (0x5C : UInt8) = 0x22 by decide, if_false, if_true] at h
  split at h
  · cases h
  rename_i letter more
  split at h
  · rename_i escaped read
    obtain ⟨⟨others, rest⟩, scan, same⟩ := Option.map_eq_some_iff.1 h
    cases same
    obtain ⟨⟨l, c⟩, listed, rfl⟩ := mem_escapes_of_letterEscape? read
    have ascii := (letterEscape?_of_mem_escapes _ listed).1
    refine ⟨.escape l c listed, more, others, fun _ _ => Piece.noConfusion, ?_, scan⟩
    rw [Piece.bytes, Utf8.encodeChar_of_ascii ascii]
    rfl
  · split at h
    · rename_i u
      split at h
      · rename_i a b c d more
        split at h
        · rename_i code read
          obtain ⟨⟨others, rest⟩, scan, same⟩ := Option.map_eq_some_iff.1 h
          cases same
          obtain ⟨first, second, third, fourth, rfl, rfl, rfl, rfl⟩ :=
            exists_hexDigits_of_codeOf? read
          refine ⟨.code first second third fourth, more, others, fun _ _ => Piece.noConfusion, ?_,
            scan⟩
          rw [u]
          rfl
        · cases h
      · cases h
    · cases h

theorem Piece.bytes_ne_nil (piece : Piece) : piece.bytes ≠ [] := by
  cases piece with
  | plain c => exact Utf8.encodeChar_ne_nil c
  | escape letter c => exact List.cons_ne_nil _ _
  | code a b c d => exact List.cons_ne_nil _ _

/-- What is scanned as a string are pieces up to its closing quote. -/
theorem exists_pieces_of_scanString {bytes rest : Bytes} (text : IsText bytes) {parts : List Part}
    (h : scanString bytes = some (parts, rest)) :
    ∃ pieces : List Piece, bytes = pieces.flatMap Piece.bytes ++ 0x22 :: rest ∧ IsText rest := by
  generalize size : bytes.length = length
  induction length using Nat.strongRecOn generalizing bytes parts with
  | ind length ih =>
    have step {piece : Piece} {more : Bytes} {others : List Part}
        (cut : bytes = piece.bytes ++ more) (text : IsText more)
        (scan : scanString more = some (others, rest)) :
        ∃ pieces : List Piece,
          bytes = pieces.flatMap Piece.bytes ++ 0x22 :: rest ∧ IsText rest := by
      have shorter : more.length < length := by
        have some := List.length_pos_iff.2 piece.bytes_ne_nil
        rw [← size, cut, List.length_append]
        omega
      obtain ⟨pieces, written, after⟩ := ih more.length shorter text scan rfl
      refine ⟨piece :: pieces, ?_, after⟩
      rw [cut, List.flatMap_cons, List.append_assoc, ← written]
    obtain ⟨chars, encoded⟩ := text
    cases chars with
    | nil =>
      rw [encoded] at h
      cases h
    | cons c chars =>
      rw [Utf8.encodeChars_cons] at encoded
      by_cases plain : isPlain c = true
      · have scan := h
        rw [encoded, show Utf8.encodeChar c = (Piece.plain c plain).bytes from rfl,
          scanString_piece] at scan
        obtain ⟨⟨others, rest⟩, scan, same⟩ := Option.map_eq_some_iff.1 scan
        cases same
        exact @step (.plain c plain) _ _ encoded ⟨chars, rfl⟩ scan
      by_cases quote : c = '"'
      · subst quote
        have encoded : bytes = 0x22 :: Utf8.encodeChars chars := encoded
        rw [encoded, scanString_quote] at h
        cases h
        exact ⟨[], encoded, chars, rfl⟩
      by_cases backslash : c = '\\'
      · subst backslash
        have encoded : bytes = 0x5C :: Utf8.encodeChars chars := encoded
        rw [encoded] at h
        obtain ⟨piece, more, others, ascii, cut, scan⟩ := exists_piece_of_scanString h
        have text : IsText (piece.bytes ++ more) := by
          rw [← cut]
          exact ⟨'\\' :: chars, rfl⟩
        exact step (encoded.trans cut)
          (isText_of_append text fun _ => lt_of_mem_bytes_of_not_plain ascii) scan
      -- what is left are the controls, which are refused
      have control : c.toNat < 0x20 := by
        refine Nat.lt_of_not_le fun high => plain ?_
        exact isPlain_iff.2 ⟨quote, backslash, Nat.not_lt.2 high⟩
      rw [encoded, Utf8.encodeChar_of_ascii (by omega), List.singleton_append,
        scanString.eq_def] at h
      have ne (byte : UInt8) (high : 0x20 ≤ byte.toNat) : UInt8.ofNat c.toNat ≠ byte := by
        rintro rfl
        rw [Utf8.toNat_ofNat_byte (by omega)] at high
        omega
      have low : UInt8.ofNat c.toNat < 0x20 := by
        rw [UInt8.lt_iff_toNat_lt, Utf8.toNat_ofNat_byte (by omega)]
        exact control
      simp only [ne 0x22 (by decide), ne 0x5C (by decide), low, if_false, if_true] at h
      cases h

/-- The text of a string is that which its pieces spell. -/
theorem textOf?_of_scanString {bytes rest : Bytes} (text : IsText bytes) {parts : List Part}
    (h : scanString bytes = some (parts, rest)) :
    ∃ pieces : List Piece, bytes = pieces.flatMap Piece.bytes ++ 0x22 :: rest
      ∧ textOfParts? parts = textOf? pieces ∧ IsText rest := by
  obtain ⟨pieces, written, after⟩ := exists_pieces_of_scanString text h
  rw [written, scanString_pieces] at h
  cases h
  exact ⟨pieces, written, textOfParts?_pieces pieces, after⟩

/-! ## Numbers -/

theorem digitBytes_of_isDigit {byte : UInt8} (digit : isDigit byte = true) :
    digitBytes (byte.toNat - 48) = [byte] := by
  obtain ⟨low, high⟩ := isDigit_iff.1 digit
  have small : byte.toNat - 48 < 10 := by omega
  have same : 48 + (byte.toNat - 48) = byte.toNat := by omega
  rw [digitBytes, Decimal.digits, Nat.toDigits_of_lt_base small, List.map_singleton,
    Nat.toNat_digitChar_of_lt_ten small, Utf8.ofNat_eq_of_toNat same]

theorem digitBytes_append {n : Nat} (pos : 0 < n) {byte : UInt8} (digit : isDigit byte = true) :
    digitBytes (10 * n + (byte.toNat - 48)) = digitBytes n ++ [byte] := by
  obtain ⟨low, high⟩ := isDigit_iff.1 digit
  have small : byte.toNat - 48 < 10 := by omega
  rw [← digitBytes_of_isDigit digit, digitBytes, Decimal.digits,
    ← Nat.toDigits_append_toDigits (by decide) pos small, List.map_append]
  rfl

/-- A number is written in the digits that it was read from, if these have no zero in front. -/
theorem digitBytes_ofDigits {first : UInt8} {others : Bytes}
    (all : ∀ byte ∈ first :: others, isDigit byte = true)
    (canonical : first = 0x30 → others = []) :
    digitBytes (ofDigits (first :: others)) = first :: others := by
  have fold {digits : Bytes} (all : ∀ byte ∈ digits, isDigit byte = true) {n : Nat}
      (pos : 0 < n) :
      digitBytes (digits.foldl (fun n byte => 10 * n + (byte.toNat - 48)) n)
        = digitBytes n ++ digits := by
    induction digits generalizing n with
    | nil => rw [List.foldl_nil, List.append_nil]
    | cons digit digits ih =>
      have others := ih (fun byte mem => all byte (List.mem_cons_of_mem digit mem))
        (show 0 < 10 * n + (digit.toNat - 48) by omega)
      rw [List.foldl_cons, others, digitBytes_append pos (all digit List.mem_cons_self),
        List.append_assoc]
      rfl
  have digit := all first List.mem_cons_self
  rw [ofDigits, List.foldl_cons, Nat.mul_zero, Nat.zero_add]
  by_cases zero : first = 0x30
  · rw [canonical zero, zero]
    rfl
  · have pos : 0 < first.toNat - 48 := by
      have other : first.toNat ≠ 0x30 := fun same => zero (UInt8.toNat_inj.1 same)
      have := isDigit_iff.1 digit
      omega
    rw [fold (fun byte mem => all byte (List.mem_cons_of_mem first mem)) pos,
      digitBytes_of_isDigit digit]
    rfl

theorem isDigits_takeWhile {bytes : Bytes} (some : (bytes.takeWhile isDigit).isEmpty ≠ true) :
    IsDigits (bytes.takeWhile isDigit) := by
  refine ⟨fun none => some (List.isEmpty_iff.2 none), fun byte mem => isDigit_iff.1 ?_⟩
  exact List.all_eq_true.1 List.all_takeWhile byte mem

/-- The digits that are scanned are those of the number that they stand for. -/
theorem digitBytes_of_scanWhole {bytes whole rest : Bytes}
    (h : scanWhole bytes = some (whole, rest)) :
    digitBytes (ofDigits whole) = whole ∧ bytes = whole ++ rest := by
  unfold scanWhole at h
  split at h
  · cases h
  rename_i first others digits
  split at h
  · cases h
  rename_i canonical
  cases h
  constructor
  · refine digitBytes_ofDigits (fun byte mem => ?_) fun zero => ?_
    · rw [← digits] at mem
      exact List.all_eq_true.1 List.all_takeWhile byte mem
    · simpa [zero] using canonical
  · rw [← digits]
    exact List.takeWhile_append_dropWhile.symm

theorem isFraction_of_afterFraction? {bytes rest : Bytes} (h : afterFraction? bytes = some rest) :
    ∃ fraction, IsFraction fraction ∧ bytes = fraction ++ rest := by
  unfold afterFraction? at h
  split at h
  · rename_i bytes
    split at h
    · cases h
    rename_i some
    cases h
    refine ⟨_, .present (isDigits_takeWhile some), ?_⟩
    rw [List.cons_append, List.takeWhile_append_dropWhile]
  · cases h
    exact ⟨[], .absent, rfl⟩

theorem exists_sign (bytes : Bytes) :
    ∃ sign, (sign = [] ∨ sign = [0x2B] ∨ sign = [0x2D]) ∧ bytes = sign ++ afterSign bytes := by
  unfold afterSign
  split
  · exact ⟨[0x2B], .inr (.inl rfl), rfl⟩
  · exact ⟨[0x2D], .inr (.inr rfl), rfl⟩
  · exact ⟨[], .inl rfl, rfl⟩

theorem isExponent_of_afterExponent? {bytes rest : Bytes} (h : afterExponent? bytes = some rest) :
    ∃ exponent, IsExponent exponent ∧ bytes = exponent ++ rest := by
  unfold afterExponent? at h
  split at h
  · cases h
    exact ⟨[], .absent, rfl⟩
  rename_i letter bytes
  split at h
  · rename_i power
    obtain ⟨sign, signed, cut⟩ := exists_sign bytes
    dsimp only at h
    split at h
    · cases h
    rename_i some
    cases h
    refine ⟨_, .present (by simpa using power) signed (isDigits_takeWhile some), ?_⟩
    rw [List.cons_append, List.append_assoc, List.takeWhile_append_dropWhile, ← cut]
  · cases h
    exact ⟨[], .absent, rfl⟩

/-- A number without a sign, in its parts. -/
theorem parts_of_scanUnsigned {bytes rest : Bytes} {natural : Option Nat}
    (h : scanUnsigned bytes = some (natural, rest)) :
    ∃ n fraction exponent, IsFraction fraction ∧ IsExponent exponent
      ∧ bytes = digitBytes n ++ (fraction ++ exponent) ++ rest
      ∧ natural = if fraction ++ exponent = [] then some n else none := by
  unfold scanUnsigned at h
  split at h
  · cases h
  rename_i whole afterWhole scan
  split at h
  · cases h
  rename_i afterPoint point
  split at h
  · cases h
  rename_i afterAll power
  cases h
  obtain ⟨written, cut⟩ := digitBytes_of_scanWhole scan
  obtain ⟨fraction, isFraction, rfl⟩ := isFraction_of_afterFraction? point
  obtain ⟨exponent, isExponent, rfl⟩ := isExponent_of_afterExponent? power
  refine ⟨ofDigits whole, fraction, exponent, isFraction, isExponent, ?_, ?_⟩
  · rw [written, cut, List.append_assoc, List.append_assoc]
  · have same : rest.length = (fraction ++ (exponent ++ rest)).length
        ↔ fraction ++ exponent = [] := by
      rw [← List.append_assoc, List.length_append, ← List.length_eq_zero_iff]
      omega
    simp only [same]

/-- What is scanned as a number is one. -/
theorem denotesNumber_of_scanNumber {bytes rest : Bytes} {natural : Option Nat}
    (h : scanNumber bytes = some (natural, rest)) :
    ∃ number, DenotesNumber number natural ∧ bytes = number ++ rest := by
  unfold scanNumber at h
  split at h
  · obtain ⟨⟨_, rest⟩, scan, same⟩ := Option.map_eq_some_iff.1 h
    cases same
    obtain ⟨n, fraction, exponent, isFraction, isExponent, rfl, _⟩ := parts_of_scanUnsigned scan
    exact ⟨_, .negative n isFraction isExponent, rfl⟩
  · obtain ⟨n, fraction, exponent, isFraction, isExponent, rfl, rfl⟩ := parts_of_scanUnsigned h
    by_cases none : fraction ++ exponent = []
    · rw [if_pos none, none]
      refine ⟨_, .natural n, ?_⟩
      rw [List.append_nil]
    · rw [if_neg none]
      exact ⟨_, .decimal n isFraction isExponent none, rfl⟩

theorem lt_of_mem_digits {digits : Bytes} (h : ∀ byte ∈ digits, isDigit byte = true) :
    ∀ byte ∈ digits, byte.toNat < 0x80 := by
  intro byte mem
  have := isDigit_iff.1 (h byte mem)
  omega

theorem lt_of_mem_fraction {fraction : Bytes} (h : IsFraction fraction) :
    ∀ byte ∈ fraction, byte.toNat < 0x80 := by
  cases h with
  | absent => exact List.forall_mem_nil _
  | present isDigits =>
    exact List.forall_mem_cons.2 ⟨by decide, lt_of_mem_digits (isDigit_of_isDigits isDigits)⟩

theorem lt_of_mem_exponent {exponent : Bytes} (h : IsExponent exponent) :
    ∀ byte ∈ exponent, byte.toNat < 0x80 := by
  cases h with
  | absent => exact List.forall_mem_nil _
  | present power signed isDigits =>
    refine List.forall_mem_cons.2 ⟨?_, List.forall_mem_append.2 ⟨?_, ?_⟩⟩
    · rcases power with rfl | rfl <;> decide
    · rcases signed with rfl | rfl | rfl <;> simp
    · exact lt_of_mem_digits (isDigit_of_isDigits isDigits)

/-- Numbers are written in ASCII. -/
theorem lt_of_mem_number {bytes : Bytes} {natural : Option Nat} (h : DenotesNumber bytes natural) :
    ∀ byte ∈ bytes, byte.toNat < 0x80 := by
  have digits (n : Nat) : ∀ byte ∈ digitBytes n, byte.toNat < 0x80 :=
    lt_of_mem_digits fun _ => isDigit_of_mem_digitBytes
  have parts {fraction exponent : Bytes} (isFraction : IsFraction fraction)
      (isExponent : IsExponent exponent) (n : Nat) :
      ∀ byte ∈ digitBytes n ++ (fraction ++ exponent), byte.toNat < 0x80 :=
    List.forall_mem_append.2 ⟨digits n,
      List.forall_mem_append.2 ⟨lt_of_mem_fraction isFraction, lt_of_mem_exponent isExponent⟩⟩
  cases h with
  | natural n => exact digits n
  | decimal n isFraction isExponent => exact parts isFraction isExponent n
  | negative n isFraction isExponent =>
    exact List.forall_mem_cons.2 ⟨by decide, parts isFraction isExponent n⟩

/-! ## Values -/

theorem eq_append_of_afterWord? {word bytes rest : Bytes} (h : afterWord? word bytes = some rest) :
    bytes = word ++ rest := by
  fun_induction afterWord? word bytes with
  | case1 bytes => exact Option.some.inj h
  | case2 => cases h
  | case3 word byte bytes ih => rw [List.cons_append, ← ih h]
  | case4 => cases h

theorem denotes_of_readScalar {bytes rest : Bytes} (text : IsText bytes) {value : Value}
    (h : readScalar bytes = (value, rest)) (complete : value.isComplete = true) :
    ∃ head, Denotes head value ∧ bytes = head ++ rest ∧ IsText rest := by
  have word {head : Bytes} {value : Value} (denotes : Denotes head value)
      (ascii : ∀ byte ∈ head, byte.toNat < 0x80) (cut : bytes = head ++ rest) :
      ∃ head, Denotes head value ∧ bytes = head ++ rest ∧ IsText rest := by
    refine ⟨head, denotes, cut, ?_⟩
    rw [cut] at text
    exact isText_of_append text ascii
  unfold readScalar at h
  split at h
  · rename_i after
    cases h
    exact word .null (by simp) (eq_append_of_afterWord? after)
  split at h
  · rename_i after
    cases h
    exact word .true (by simp) (eq_append_of_afterWord? after)
  split at h
  · rename_i after
    cases h
    exact word .false (by simp) (eq_append_of_afterWord? after)
  split at h
  · rename_i scan
    cases h
    obtain ⟨number, denotes, cut⟩ := denotesNumber_of_scanNumber scan
    exact word (.number denotes) (lt_of_mem_number denotes) cut
  · cases h
    cases complete

/-! What the reader does in one call, if what it reads is whole. -/

section Steps

variable {fuel : Nat} {bytes rest : Bytes}

theorem readValue_cases {value : Value} (h : readValue (fuel + 1) bytes = (value, rest))
    (complete : value.isComplete = true) :
    ∃ byte more, skipSpace bytes = byte :: more
      ∧ ((byte = 0x22 ∧ ∃ parts, scanString more = some (parts, rest)
          ∧ value = .string (textOfParts? parts))
        ∨ (byte = 0x5B ∧ ∃ items, readItems fuel more = (items, rest) ∧ value = .array items)
        ∨ (byte = 0x7B ∧ ∃ members, readMembers fuel more = (members, rest)
          ∧ value = .object members)
        ∨ readScalar (byte :: more) = (value, rest)) := by
  rw [readValue] at h
  split at h
  · cases h
    cases complete
  rename_i byte more start
  refine ⟨byte, more, start, ?_⟩
  split at h
  · rename_i quote
    split at h
    · rename_i parts after scan
      cases h
      exact .inl ⟨quote, parts, scan, rfl⟩
    · cases h
      cases complete
  split at h
  · rename_i bracket
    cases h
    exact .inr (.inl ⟨bracket, _, rfl, rfl⟩)
  split at h
  · rename_i brace
    cases h
    exact .inr (.inr (.inl ⟨brace, _, rfl, rfl⟩))
  · exact .inr (.inr (.inr h))

theorem readItems_cases {items : Items} (h : readItems (fuel + 1) bytes = (items, rest))
    (complete : items.isComplete = true) :
    ∃ byte more, skipSpace bytes = byte :: more
      ∧ ((byte = 0x5D ∧ items = .closed ∧ rest = more)
        ∨ ∃ head after tail, readValue fuel (byte :: more) = (head, after)
          ∧ readMoreItems fuel after = (tail, rest) ∧ items = .cons head tail) := by
  rw [readItems] at h
  split at h
  · cases h
    cases complete
  rename_i byte more start
  refine ⟨byte, more, start, ?_⟩
  split at h
  · rename_i bracket
    cases h
    exact .inl ⟨bracket, rfl, rfl⟩
  · cases h
    exact .inr ⟨_, _, _, rfl, rfl, rfl⟩

theorem readMoreItems_cases {items : Items} (h : readMoreItems (fuel + 1) bytes = (items, rest))
    (complete : items.isComplete = true) :
    ∃ byte more, skipSpace bytes = byte :: more
      ∧ ((byte = 0x5D ∧ items = .closed ∧ rest = more)
        ∨ (byte = 0x2C ∧ ∃ head after tail, readValue fuel more = (head, after)
          ∧ readMoreItems fuel after = (tail, rest) ∧ items = .cons head tail)) := by
  rw [readMoreItems] at h
  split at h
  · cases h
    cases complete
  rename_i byte more start
  refine ⟨byte, more, start, ?_⟩
  split at h
  · rename_i bracket
    cases h
    exact .inl ⟨bracket, rfl, rfl⟩
  split at h
  · rename_i comma
    cases h
    exact .inr ⟨comma, _, _, _, rfl, rfl, rfl⟩
  · cases h
    cases complete

theorem readMembers_cases {members : Members} (h : readMembers (fuel + 1) bytes = (members, rest))
    (complete : members.isComplete = true) :
    ∃ byte more, skipSpace bytes = byte :: more
      ∧ ((byte = 0x7D ∧ members = .closed ∧ rest = more)
        ∨ readMember fuel bytes = (members, rest)) := by
  rw [readMembers] at h
  split at h
  · cases h
    cases complete
  rename_i byte more start
  refine ⟨byte, more, start, ?_⟩
  split at h
  · rename_i brace
    cases h
    exact .inl ⟨brace, rfl, rfl⟩
  · rw [← start, readMember_skipSpace] at h
    exact .inr h

theorem readMoreMembers_cases {members : Members}
    (h : readMoreMembers (fuel + 1) bytes = (members, rest))
    (complete : members.isComplete = true) :
    ∃ byte more, skipSpace bytes = byte :: more
      ∧ ((byte = 0x7D ∧ members = .closed ∧ rest = more)
        ∨ (byte = 0x2C ∧ readMember fuel more = (members, rest))) := by
  rw [readMoreMembers] at h
  split at h
  · cases h
    cases complete
  rename_i byte more start
  refine ⟨byte, more, start, ?_⟩
  split at h
  · rename_i brace
    cases h
    exact .inl ⟨brace, rfl, rfl⟩
  split at h
  · rename_i comma
    exact .inr ⟨comma, h⟩
  · cases h
    cases complete

theorem readMember_cases {members : Members} (h : readMember (fuel + 1) bytes = (members, rest))
    (complete : members.isComplete = true) :
    ∃ more parts afterKey afterColon value afterValue tail,
      skipSpace bytes = 0x22 :: more ∧ scanString more = some (parts, afterKey)
        ∧ skipSpace afterKey = 0x3A :: afterColon
        ∧ readValue fuel afterColon = (value, afterValue)
        ∧ readMoreMembers fuel afterValue = (tail, rest)
        ∧ members = .cons (textOfParts? parts) value tail := by
  rw [readMember] at h
  split at h
  · cases h
    cases complete
  rename_i byte more start
  split at h
  · rename_i quote
    subst quote
    split at h
    · cases h
      cases complete
    rename_i parts afterKey scan
    split at h
    · cases h
      cases complete
    rename_i colon afterColon startColon
    split at h
    · rename_i isColon
      subst isColon
      cases h
      exact ⟨more, parts, afterKey, afterColon, _, _, _, start, scan, startColon, rfl, rfl, rfl⟩
    · cases h
      cases complete
  · cases h
    cases complete

end Steps

/-- What stands after spaces is a text, and so is what follows a mark there. -/
theorem exists_blank_of_start {bytes more : Bytes} {byte : UInt8} (text : IsText bytes)
    (start : skipSpace bytes = byte :: more) :
    ∃ space, IsBlank space ∧ bytes = space ++ byte :: more ∧ IsText (byte :: more) := by
  obtain ⟨space, blank, cut⟩ := exists_blank bytes
  rw [start] at cut
  have after := isText_skipSpace text
  rw [start] at after
  exact ⟨space, blank, cut, after⟩

mutual

/-- A value that is read to its end is denoted by the bytes that are passed over. -/
theorem denotes_of_readValue : ∀ (fuel : Nat) {bytes rest : Bytes} {value : Value}, IsText bytes →
    readValue fuel bytes = (value, rest) → value.isComplete = true →
      ∃ space head, IsBlank space ∧ Denotes head value ∧ bytes = space ++ (head ++ rest)
        ∧ IsText rest
  | 0, _, _, _, _, h, complete => by
    rw [readValue] at h
    cases h
    cases complete
  | fuel + 1, bytes, rest, value, text, h, complete => by
    obtain ⟨byte, more, start, cases⟩ := readValue_cases h complete
    obtain ⟨space, blank, cut, text⟩ := exists_blank_of_start text start
    rcases cases with ⟨rfl, parts, scan, rfl⟩ | ⟨rfl, items, read, rfl⟩ | ⟨rfl, members, read, rfl⟩
      | scalar
    · obtain ⟨pieces, written, spelled, after⟩ :=
        textOf?_of_scanString (isText_of_cons text (by decide)) scan
      rw [spelled]
      refine ⟨space, _, blank, .string pieces, ?_, after⟩
      rw [cut, written, List.cons_append, List.append_assoc]
      rfl
    · obtain ⟨head, denotes, same, after⟩ :=
        denotes_of_readItems fuel (isText_of_cons text (by decide)) read complete
      refine ⟨space, _, blank, .array denotes, ?_, after⟩
      rw [cut, same]
      rfl
    · obtain ⟨head, denotes, same, after⟩ :=
        denotes_of_readMembers fuel (isText_of_cons text (by decide)) read complete
      refine ⟨space, _, blank, .object denotes, ?_, after⟩
      rw [cut, same]
      rfl
    · obtain ⟨head, denotes, same, after⟩ := denotes_of_readScalar text scalar complete
      rw [same] at cut
      exact ⟨space, head, blank, denotes, cut, after⟩

theorem denotes_of_readItems : ∀ (fuel : Nat) {bytes rest : Bytes} {items : Items}, IsText bytes →
    readItems fuel bytes = (items, rest) → items.isComplete = true →
      ∃ head, DenotesItems head items ∧ bytes = head ++ rest ∧ IsText rest
  | 0, _, _, _, _, h, complete => by
    rw [readItems] at h
    cases h
    cases complete
  | fuel + 1, bytes, rest, items, text, h, complete => by
    obtain ⟨byte, more, start, cases⟩ := readItems_cases h complete
    obtain ⟨space, blank, cut, text⟩ := exists_blank_of_start text start
    rcases cases with ⟨rfl, rfl, rfl⟩ | ⟨value, afterValue, others, read, readMore, rfl⟩
    · refine ⟨_, .closed blank, ?_, isText_of_cons text (by decide)⟩
      rw [cut, List.append_assoc]
      rfl
    · obtain ⟨whole, wholeMore⟩ := Bool.and_eq_true_iff.1 complete
      obtain ⟨inner, head, innerBlank, denotes, same, after⟩ :=
        denotes_of_readValue fuel text read whole
      obtain ⟨tail, denotesMore, sameMore, afterMore⟩ :=
        denotes_of_readMoreItems fuel after readMore wholeMore
      refine ⟨_, .cons (isBlank_append blank innerBlank) denotes denotesMore, ?_, afterMore⟩
      rw [cut, same, sameMore]
      simp only [List.append_assoc]

theorem denotes_of_readMoreItems : ∀ (fuel : Nat) {bytes rest : Bytes} {items : Items},
    IsText bytes → readMoreItems fuel bytes = (items, rest) → items.isComplete = true →
      ∃ head, DenotesMoreItems head items ∧ bytes = head ++ rest ∧ IsText rest
  | 0, _, _, _, _, h, complete => by
    rw [readMoreItems] at h
    cases h
    cases complete
  | fuel + 1, bytes, rest, items, text, h, complete => by
    obtain ⟨byte, more, start, cases⟩ := readMoreItems_cases h complete
    obtain ⟨space, blank, cut, text⟩ := exists_blank_of_start text start
    rcases cases with ⟨rfl, rfl, rfl⟩ | ⟨rfl, value, afterValue, others, read, readMore, rfl⟩
    · refine ⟨_, .closed blank, ?_, isText_of_cons text (by decide)⟩
      rw [cut, List.append_assoc]
      rfl
    · obtain ⟨whole, wholeMore⟩ := Bool.and_eq_true_iff.1 complete
      obtain ⟨inner, head, innerBlank, denotes, same, after⟩ :=
        denotes_of_readValue fuel (isText_of_cons text (by decide)) read whole
      obtain ⟨tail, denotesMore, sameMore, afterMore⟩ :=
        denotes_of_readMoreItems fuel after readMore wholeMore
      refine ⟨_, .cons blank innerBlank denotes denotesMore, ?_, afterMore⟩
      rw [cut, same, sameMore]
      simp only [List.append_assoc, List.cons_append]

theorem denotes_of_readMembers : ∀ (fuel : Nat) {bytes rest : Bytes} {members : Members},
    IsText bytes → readMembers fuel bytes = (members, rest) → members.isComplete = true →
      ∃ head, DenotesMembers head members ∧ bytes = head ++ rest ∧ IsText rest
  | 0, _, _, _, _, h, complete => by
    rw [readMembers] at h
    cases h
    cases complete
  | fuel + 1, bytes, rest, members, text, h, complete => by
    obtain ⟨byte, more, start, cases⟩ := readMembers_cases h complete
    rcases cases with ⟨rfl, rfl, rfl⟩ | read
    · obtain ⟨space, blank, cut, text⟩ := exists_blank_of_start text start
      refine ⟨_, .closed blank, ?_, isText_of_cons text (by decide)⟩
      rw [cut, List.append_assoc]
      rfl
    · obtain ⟨head, denotes, same, after⟩ := denotes_of_readMember fuel text read complete
      exact ⟨head, .member denotes, same, after⟩

theorem denotes_of_readMoreMembers : ∀ (fuel : Nat) {bytes rest : Bytes} {members : Members},
    IsText bytes → readMoreMembers fuel bytes = (members, rest) → members.isComplete = true →
      ∃ head, DenotesMoreMembers head members ∧ bytes = head ++ rest ∧ IsText rest
  | 0, _, _, _, _, h, complete => by
    rw [readMoreMembers] at h
    cases h
    cases complete
  | fuel + 1, bytes, rest, members, text, h, complete => by
    obtain ⟨byte, more, start, cases⟩ := readMoreMembers_cases h complete
    obtain ⟨space, blank, cut, text⟩ := exists_blank_of_start text start
    rcases cases with ⟨rfl, rfl, rfl⟩ | ⟨rfl, read⟩
    · refine ⟨_, .closed blank, ?_, isText_of_cons text (by decide)⟩
      rw [cut, List.append_assoc]
      rfl
    · obtain ⟨head, denotes, same, after⟩ :=
        denotes_of_readMember fuel (isText_of_cons text (by decide)) read complete
      refine ⟨_, .member blank denotes, ?_, after⟩
      rw [cut, same, List.append_assoc]
      rfl

theorem denotes_of_readMember : ∀ (fuel : Nat) {bytes rest : Bytes} {members : Members},
    IsText bytes → readMember fuel bytes = (members, rest) → members.isComplete = true →
      ∃ head, DenotesMember head members ∧ bytes = head ++ rest ∧ IsText rest
  | 0, _, _, _, _, h, complete => by
    rw [readMember] at h
    cases h
    cases complete
  | fuel + 1, bytes, rest, members, text, h, complete => by
    obtain ⟨more, parts, afterKey, afterColon, value, afterValue, others, start, scan, startColon,
      read, readMore, rfl⟩ := readMember_cases h complete
    obtain ⟨whole, wholeMore⟩ := Bool.and_eq_true_iff.1 complete
    obtain ⟨before, blank, cut, text⟩ := exists_blank_of_start text start
    obtain ⟨pieces, written, spelled, text⟩ :=
      textOf?_of_scanString (isText_of_cons text (by decide)) scan
    obtain ⟨after, afterBlank, cutKey, text⟩ := exists_blank_of_start text startColon
    obtain ⟨inner, head, innerBlank, denotes, same, text⟩ :=
      denotes_of_readValue fuel (isText_of_cons text (by decide)) read whole
    obtain ⟨tail, denotesMore, sameMore, text⟩ :=
      denotes_of_readMoreMembers fuel text readMore wholeMore
    rw [spelled]
    refine ⟨_, .cons pieces blank afterBlank innerBlank denotes denotesMore, ?_, text⟩
    rw [cut, written, cutKey, same, sameMore]
    simp only [List.append_assoc, List.cons_append]

end

/-! ## Whole documents -/

/-- The documents among the texts are those that are read to their end with nothing but spaces left
over, and they denote what is read. -/
theorem denotesDocument_iff {text : String} {value : Value} :
    DenotesDocument (Utf8.encode text) value
      ↔ (∃ rest, read (Utf8.encode text) = (value, rest) ∧ skipSpace rest = [])
        ∧ value.isComplete = true := by
  constructor
  · intro document
    obtain ⟨after, found, blank⟩ := read_of_denotesDocument document
    exact ⟨⟨after, found, skipSpace_of_blank blank⟩, isComplete_of_denotesDocument document⟩
  · rintro ⟨⟨rest, found, none⟩, complete⟩
    obtain ⟨space, head, blank, denotes, same, _⟩ :=
      denotes_of_readValue _ ⟨text.toList, rfl⟩ found complete
    rw [Utf8.encode, same]
    exact .mk blank denotes (isBlank_of_skipSpace none)

/-- What is made of a text is made of the value that it denotes, if nothing is made of a value that
breaks off. -/
theorem document_eq_ok_iff {α : Type} {interpret : Value → Except Fault α}
    (whole : ∀ value result, interpret value = .ok result → value.isComplete = true) {text : String}
    {result : α} :
    document interpret (Utf8.encode text) = .ok result
      ↔ ∃ value, DenotesDocument (Utf8.encode text) value ∧ interpret value = .ok result := by
  constructor
  · intro h
    unfold document at h
    cases found : read (Utf8.encode text) with
    | mk value rest =>
      rw [found] at h
      dsimp only at h
      split at h
      · rename_i made interpreted
        split at h
        · rename_i none
          cases h
          have complete := whole value result interpreted
          refine ⟨value, denotesDocument_iff.2 ⟨⟨rest, found, ?_⟩, complete⟩, interpreted⟩
          exact List.isEmpty_iff.1 none
        · cases h
      · cases h
  · rintro ⟨value, denotes, interpreted⟩
    rw [document_of_denotesDocument interpret denotes, interpreted]

end Json

end SealedEnvelope
