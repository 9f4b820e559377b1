import SealedEnvelope.Text.Utf8

/-!
# Laws of UTF-8

Characters are read back from their bytes, whatever follows them, and bytes that read without a
fault are those of the characters read: strict reading and writing are inverse to each other.
-/

set_option autoImplicit false

namespace SealedEnvelope

namespace Utf8

/-! ## Numbers of bytes and characters -/

theorem toNat_ofNat_byte {n : Nat} (h : n < 256) : (UInt8.ofNat n).toNat = n := by
  rw [UInt8.toNat_ofNat']
  omega

theorem ofNat_eq_of_toNat {n : Nat} {byte : UInt8} (h : n = byte.toNat) : UInt8.ofNat n = byte := by
  subst h
  exact UInt8.ofNat_toNat

theorem toNat_ofNat_char {n : Nat} (h : n < 0xD800 ∨ 0xDFFF < n ∧ n < 0x110000) :
    (Char.ofNat n).toNat = n := by
  rw [Char.ofNat, dif_pos h]
  rfl

theorem toNat_valid (c : Char) : c.toNat < 0xD800 ∨ 0xDFFF < c.toNat ∧ c.toNat < 0x110000 := c.valid

/-! ## Characters of one byte -/

theorem encodeChar_of_ascii {c : Char} (ascii : c.toNat < 0x80) :
    encodeChar c = [UInt8.ofNat c.toNat] := by
  rw [encodeChar, if_pos ascii]

theorem encodeChars_of_ascii {chars : List Char} (ascii : ∀ c ∈ chars, c.toNat < 0x80) :
    encodeChars chars = chars.map fun c => UInt8.ofNat c.toNat := by
  induction chars with
  | nil => rfl
  | cons c chars ih =>
    rw [encodeChars_cons, encodeChar_of_ascii (ascii c (by simp)),
      ih fun c' h => ascii c' (by simp [h])]
    rfl

/-- The bytes of a character of several bytes are outside ASCII. -/
theorem le_of_mem_encodeChar {c : Char} (wide : 0x80 ≤ c.toNat) {byte : UInt8}
    (h : byte ∈ encodeChar c) : 0x80 ≤ byte.toNat := by
  have valid := toNat_valid c
  rw [encodeChar, if_neg (by omega)] at h
  repeat' split at h
  all_goals
    simp only [List.mem_cons, List.not_mem_nil, or_false] at h
    rcases h with rfl | rfl | rfl | rfl
  all_goals
    rw [toNat_ofNat_byte (by omega)]
    omega

theorem encodeChar_ne_nil (c : Char) : encodeChar c ≠ [] := by
  unfold encodeChar
  dsimp only
  repeat' split
  all_goals exact List.cons_ne_nil _ _

/-- Characters whose bytes are all of ASCII are of ASCII. -/
theorem ascii_of_encodeChars {chars : List Char}
    (ascii : ∀ byte ∈ encodeChars chars, byte.toNat < 0x80) : ∀ c ∈ chars, c.toNat < 0x80 := by
  intro c mem
  apply Nat.lt_of_not_le
  intro wide
  obtain ⟨byte, inChar⟩ := List.exists_mem_of_ne_nil _ (encodeChar_ne_nil c)
  have large := le_of_mem_encodeChar wide inChar
  have small := ascii byte (List.mem_flatMap.2 ⟨c, mem, inChar⟩)
  omega

/-! ## Marks of one byte -/

section Mark

variable {mark : Char} (ascii : mark.toNat < 0x80)
include ascii

/-- The byte of a character of ASCII is in no other character. -/
theorem not_mem_encodeChar {c : Char} (ne : c ≠ mark) : UInt8.ofNat mark.toNat ∉ encodeChar c := by
  have value := toNat_ofNat_byte (show mark.toNat < 256 by omega)
  intro mem
  by_cases wide : 0x80 ≤ c.toNat
  · have large := le_of_mem_encodeChar wide mem
    omega
  · rw [encodeChar_of_ascii (by omega), List.mem_singleton, ← UInt8.toNat_inj, value,
      toNat_ofNat_byte (by omega)] at mem
    exact ne (Char.toNat_inj.1 mem.symm)

theorem count_encodeChars (chars : List Char) :
    (encodeChars chars).count (UInt8.ofNat mark.toNat) = chars.count mark := by
  induction chars with
  | nil => rfl
  | cons c chars ih =>
    rw [encodeChars_cons, List.count_append, ih]
    by_cases same : c = mark
    · subst same
      rw [encodeChar_of_ascii ascii, List.count_singleton_self, List.count_cons_self, Nat.add_comm]
    · rw [List.count_eq_zero.2 (not_mem_encodeChar ascii same), List.count_cons_of_ne same,
        Nat.zero_add]

/-- The bytes before the first mark are those of the characters before it. -/
theorem takeWhile_encodeChars (chars : List Char) :
    (encodeChars chars).takeWhile (· ≠ UInt8.ofNat mark.toNat)
      = encodeChars (chars.takeWhile (· ≠ mark)) := by
  induction chars with
  | nil => rfl
  | cons c chars ih =>
    rw [encodeChars_cons]
    by_cases same : c = mark
    · subst same
      rw [encodeChar_of_ascii ascii]
      simp
    · have apart : ∀ byte ∈ encodeChar c, decide (byte ≠ UInt8.ofNat mark.toNat) = true := by
        intro byte mem
        refine decide_eq_true ?_
        rintro rfl
        exact not_mem_encodeChar ascii same mem
      rw [List.takeWhile_append_of_pos apart, ih, List.takeWhile_cons_of_pos (by simp [same])]
      rfl

end Mark

/-! ## First bytes and the bytes they admit -/

theorem lead_eq_one_iff {a : UInt8} : lead a = .one ↔ a.toNat < 0x80 := by
  simp only [lead, UInt8.lt_iff_toNat_lt, ← UInt8.toNat_inj, UInt8.toNat_ofNat]
  have := a.toNat_lt
  grind

theorem lead_eq_two_iff {a : UInt8} : lead a = .two ↔ 0xC2 ≤ a.toNat ∧ a.toNat < 0xE0 := by
  simp only [lead, UInt8.lt_iff_toNat_lt, ← UInt8.toNat_inj, UInt8.toNat_ofNat]
  have := a.toNat_lt
  grind

theorem isTail_iff {b : UInt8} : isTail b = true ↔ 0x80 ≤ b.toNat ∧ b.toNat < 0xC0 := by
  simp only [isTail, UInt8.le_iff_toNat_le, UInt8.toNat_ofNat, Bool.and_eq_true, decide_eq_true_eq]
  omega

/-- Which first bytes begin a character of three bytes, and the bounds of the second byte. -/
theorem lead_eq_three {a low high : UInt8} :
    lead a = .three low high
      ↔ a.toNat = 0xE0 ∧ low = 0xA0 ∧ high = 0xBF ∨ a.toNat = 0xED ∧ low = 0x80 ∧ high = 0x9F
        ∨ 0xE0 < a.toNat ∧ a.toNat < 0xF0 ∧ a.toNat ≠ 0xED ∧ low = 0x80 ∧ high = 0xBF := by
  simp only [lead, UInt8.lt_iff_toNat_lt, ← UInt8.toNat_inj (a := a), UInt8.toNat_ofNat]
  grind

/-- Which first bytes begin a character of four bytes, and the bounds of the second byte. -/
theorem lead_eq_four {a low high : UInt8} :
    lead a = .four low high
      ↔ a.toNat = 0xF0 ∧ low = 0x90 ∧ high = 0xBF ∨ a.toNat = 0xF4 ∧ low = 0x80 ∧ high = 0x8F
        ∨ 0xF0 < a.toNat ∧ a.toNat < 0xF4 ∧ low = 0x80 ∧ high = 0xBF := by
  simp only [lead, UInt8.lt_iff_toNat_lt, ← UInt8.toNat_inj (a := a), UInt8.toNat_ofNat]
  grind

theorem between_iff {low high b : UInt8} :
    (decide (low ≤ b) && decide (b ≤ high)) = true
      ↔ low.toNat ≤ b.toNat ∧ b.toNat ≤ high.toNat := by
  rw [Bool.and_eq_true, decide_eq_true_iff, decide_eq_true_iff, UInt8.le_iff_toNat_le,
    UInt8.le_iff_toNat_le]

/-- The second bytes that a first byte of three admits. -/
theorem lead_eq_three_iff {a b : UInt8} :
    (∃ low high, lead a = .three low high ∧ (decide (low ≤ b) && decide (b ≤ high)) = true) ↔
      0xE0 ≤ a.toNat ∧ a.toNat < 0xF0 ∧ 0x80 ≤ b.toNat ∧ b.toNat < 0xC0
        ∧ (a.toNat = 0xE0 → 0xA0 ≤ b.toNat) ∧ (a.toNat = 0xED → b.toNat < 0xA0) := by
  simp only [lead_eq_three, between_iff]
  constructor
  · rintro ⟨low, high, ⟨_, rfl, rfl⟩ | ⟨_, rfl, rfl⟩ | ⟨_, _, _, rfl, rfl⟩, lower, upper⟩
    all_goals
      simp only [UInt8.toNat_ofNat] at lower upper
      omega
  · rintro ⟨_, _, lower, upper, overlong, surrogate⟩
    by_cases first : a.toNat = 0xE0
    · exact ⟨0xA0, 0xBF, .inl ⟨first, rfl, rfl⟩, overlong first, Nat.le_of_lt_succ upper⟩
    by_cases last : a.toNat = 0xED
    · exact ⟨0x80, 0x9F, .inr (.inl ⟨last, rfl, rfl⟩), lower, Nat.le_of_lt_succ (surrogate last)⟩
    · exact ⟨0x80, 0xBF, .inr (.inr ⟨by omega, by omega, last, rfl, rfl⟩), lower,
        Nat.le_of_lt_succ upper⟩

/-- The second bytes that a first byte of four admits. -/
theorem lead_eq_four_iff {a b : UInt8} :
    (∃ low high, lead a = .four low high ∧ (decide (low ≤ b) && decide (b ≤ high)) = true) ↔
      0xF0 ≤ a.toNat ∧ a.toNat < 0xF5 ∧ 0x80 ≤ b.toNat ∧ b.toNat < 0xC0
        ∧ (a.toNat = 0xF0 → 0x90 ≤ b.toNat) ∧ (a.toNat = 0xF4 → b.toNat < 0x90) := by
  simp only [lead_eq_four, between_iff]
  constructor
  · rintro ⟨low, high, ⟨_, rfl, rfl⟩ | ⟨_, rfl, rfl⟩ | ⟨_, _, rfl, rfl⟩, lower, upper⟩
    all_goals
      simp only [UInt8.toNat_ofNat] at lower upper
      omega
  · rintro ⟨_, _, lower, upper, overlong, greatest⟩
    by_cases first : a.toNat = 0xF0
    · exact ⟨0x90, 0xBF, .inl ⟨first, rfl, rfl⟩, overlong first, Nat.le_of_lt_succ upper⟩
    by_cases last : a.toNat = 0xF4
    · exact ⟨0x80, 0x8F, .inr (.inl ⟨last, rfl, rfl⟩), lower, Nat.le_of_lt_succ (greatest last)⟩
    · exact ⟨0x80, 0xBF, .inr (.inr ⟨by omega, by omega, rfl, rfl⟩), lower,
        Nat.le_of_lt_succ upper⟩

/-! ## The pieces of whole characters -/

theorem pieces_one {a : UInt8} (h : lead a = .one) (rest : Bytes) :
    pieces (a :: rest) = .char (Char.ofNat a.toNat) :: pieces rest := by
  rw [pieces.eq_def]
  simp only [h]

theorem pieces_two {a b : UInt8} (ha : lead a = .two) (hb : isTail b = true) (rest : Bytes) :
    pieces (a :: b :: rest) = .char (charOfTwo a b) :: pieces rest := by
  rw [pieces.eq_def]
  simp only [ha, hb, if_true]

theorem pieces_three {a b c low high : UInt8} (ha : lead a = .three low high)
    (hb : (decide (low ≤ b) && decide (b ≤ high)) = true) (hc : isTail c = true) (rest : Bytes) :
    pieces (a :: b :: c :: rest) = .char (charOfThree a b c) :: pieces rest := by
  rw [pieces.eq_def]
  simp only [ha, hb, hc, if_true]

theorem pieces_four {a b c d low high : UInt8} (ha : lead a = .four low high)
    (hb : (decide (low ≤ b) && decide (b ≤ high)) = true) (hc : isTail c = true)
    (hd : isTail d = true) (rest : Bytes) :
    pieces (a :: b :: c :: d :: rest) = .char (charOfFour a b c d) :: pieces rest := by
  rw [pieces.eq_def]
  simp only [ha, hb, hc, hd, if_true]

/-! ## Reading what was written -/

/-- A character is read back from its bytes, whatever follows them. -/
theorem pieces_encodeChar_append (c : Char) (rest : Bytes) :
    pieces (encodeChar c ++ rest) = .char c :: pieces rest := by
  have valid := toNat_valid c
  have back := Char.ofNat_toNat c
  unfold encodeChar
  generalize c.toNat = n at *
  subst back
  dsimp only
  have byte (k : Nat) (h : k < 256) := toNat_ofNat_byte h
  split
  · have ha := byte n (by omega)
    rw [List.cons_append, List.nil_append, pieces_one (lead_eq_one_iff.2 (by omega)), ha]
  · split
    · have ha := byte (0xC0 + n / 64) (by omega)
      have hb := byte (0x80 + n % 64) (by omega)
      simp only [List.cons_append, List.nil_append]
      rw [pieces_two (lead_eq_two_iff.2 (by omega)) (isTail_iff.2 (by omega)), charOfTwo, tailBits,
        ha, hb]
      congr 3
      omega
    · split
      · have ha := byte (0xE0 + n / 4096) (by omega)
        have hb := byte (0x80 + n / 64 % 64) (by omega)
        have hc := byte (0x80 + n % 64) (by omega)
        obtain ⟨low, high, la, lb⟩ := (lead_eq_three_iff (a := UInt8.ofNat (0xE0 + n / 4096))
          (b := UInt8.ofNat (0x80 + n / 64 % 64))).2 (by omega)
        simp only [List.cons_append, List.nil_append]
        rw [pieces_three la lb (isTail_iff.2 (by omega)), charOfThree, tailBits, tailBits, ha, hb,
          hc]
        congr 3
        omega
      · have ha := byte (0xF0 + n / 262144) (by omega)
        have hb := byte (0x80 + n / 4096 % 64) (by omega)
        have hc := byte (0x80 + n / 64 % 64) (by omega)
        have hd := byte (0x80 + n % 64) (by omega)
        obtain ⟨low, high, la, lb⟩ := (lead_eq_four_iff (a := UInt8.ofNat (0xF0 + n / 262144))
          (b := UInt8.ofNat (0x80 + n / 4096 % 64))).2 (by omega)
        simp only [List.cons_append, List.nil_append]
        rw [pieces_four la lb (isTail_iff.2 (by omega)) (isTail_iff.2 (by omega)), charOfFour,
          tailBits, tailBits, tailBits, ha, hb, hc, hd]
        congr 3
        omega

theorem pieces_encodeChars_append (chars : List Char) (rest : Bytes) :
    pieces (encodeChars chars ++ rest) = chars.map Piece.char ++ pieces rest := by
  induction chars with
  | nil => rfl
  | cons c chars ih => simp [pieces_encodeChar_append, ih]

theorem pieces_encodeChars (chars : List Char) :
    pieces (encodeChars chars) = chars.map Piece.char := by
  have h := pieces_encodeChars_append chars []
  simpa [show pieces [] = [] by rw [pieces.eq_def]] using h

theorem charsOfPieces_map_char (index : Nat) (chars : List Char) :
    charsOfPieces index (chars.map Piece.char) = .ok chars := by
  induction chars generalizing index with
  | nil => rfl
  | cons c chars ih => simp [charsOfPieces, ih]

theorem decodeChars_encodeChars (chars : List Char) :
    decodeChars (encodeChars chars) = .ok chars := by
  rw [decodeChars, pieces_encodeChars, charsOfPieces_map_char]

theorem decode_encode (text : String) : decode (encode text) = .ok text := by
  simp [decode, encode, decodeChars_encodeChars]

theorem encode_inj {left right : String} : encode left = encode right ↔ left = right := by
  refine ⟨fun same => ?_, congrArg encode⟩
  have read := decode_encode left
  rw [same, decode_encode] at read
  exact (Except.ok.inj read).symm

/-- Nothing of a text is replaced. -/
theorem decodeLossy_encodeChars (chars : List Char) : decodeLossy (encodeChars chars) = chars := by
  rw [decodeLossy, pieces_encodeChars, List.map_map]
  exact List.map_id chars

/-! ## Writing what was read -/

theorem encodeChar_ofNat_one {a : UInt8} (h : lead a = .one) :
    encodeChar (Char.ofNat a.toNat) = [a] := by
  rw [lead_eq_one_iff] at h
  rw [encodeChar, toNat_ofNat_char (by omega), if_pos h, UInt8.ofNat_toNat]

theorem encodeChar_charOfTwo {a b : UInt8} (ha : lead a = .two) (hb : isTail b = true) :
    encodeChar (charOfTwo a b) = [a, b] := by
  rw [lead_eq_two_iff] at ha
  rw [isTail_iff] at hb
  rw [charOfTwo, tailBits, encodeChar, toNat_ofNat_char (by omega)]
  rw [if_neg (by omega), if_pos (by omega),
    ofNat_eq_of_toNat (by omega : _ = a.toNat), ofNat_eq_of_toNat (by omega : _ = b.toNat)]

theorem encodeChar_charOfThree {a b c low high : UInt8} (ha : lead a = .three low high)
    (hb : (decide (low ≤ b) && decide (b ≤ high)) = true) (hc : isTail c = true) :
    encodeChar (charOfThree a b c) = [a, b, c] := by
  have hab := lead_eq_three_iff.1 ⟨low, high, ha, hb⟩
  rw [isTail_iff] at hc
  rw [charOfThree, tailBits, tailBits, encodeChar, toNat_ofNat_char (by omega)]
  rw [if_neg (by omega), if_neg (by omega), if_pos (by omega),
    ofNat_eq_of_toNat (by omega : _ = a.toNat), ofNat_eq_of_toNat (by omega : _ = b.toNat),
    ofNat_eq_of_toNat (by omega : _ = c.toNat)]

theorem encodeChar_charOfFour {a b c d low high : UInt8} (ha : lead a = .four low high)
    (hb : (decide (low ≤ b) && decide (b ≤ high)) = true) (hc : isTail c = true)
    (hd : isTail d = true) : encodeChar (charOfFour a b c d) = [a, b, c, d] := by
  have hab := lead_eq_four_iff.1 ⟨low, high, ha, hb⟩
  rw [isTail_iff] at hc hd
  rw [charOfFour, tailBits, tailBits, tailBits, encodeChar, toNat_ofNat_char (by omega)]
  rw [if_neg (by omega), if_neg (by omega), if_neg (by omega),
    ofNat_eq_of_toNat (by omega : _ = a.toNat), ofNat_eq_of_toNat (by omega : _ = b.toNat),
    ofNat_eq_of_toNat (by omega : _ = c.toNat), ofNat_eq_of_toNat (by omega : _ = d.toNat)]

/-- Pieces read without a fault are characters only. -/
theorem eq_map_char_of_charsOfPieces {index : Nat} {list : List Piece} {chars : List Char}
    (h : charsOfPieces index list = .ok chars) : list = chars.map Piece.char := by
  induction list generalizing index chars with
  | nil => cases h; rfl
  | cons piece list ih =>
    cases piece with
    | char c =>
      rw [charsOfPieces] at h
      split at h
      · rename_i tail eq
        cases h
        rw [List.map_cons, ih eq]
      · contradiction
    | broken count => contradiction
    | cut count => contradiction

/-- Bytes whose pieces are characters only are the bytes of those characters. -/
theorem eq_encodeChars_of_pieces {bytes : Bytes} {chars : List Char}
    (h : pieces bytes = chars.map Piece.char) : bytes = encodeChars chars := by
  fun_induction pieces bytes generalizing chars
  all_goals cases chars
  all_goals
    simp only [List.map_nil, List.map_cons, List.cons.injEq, reduceCtorEq, false_and,
      Piece.char.injEq] at h
  case case1.nil => rfl
  case case2.cons lead ih _ _ =>
    rw [encodeChars_cons, ← h.1, encodeChar_ofNat_one lead, ← ih h.2]
    rfl
  case case5.cons lead _ _ second ih _ _ =>
    rw [encodeChars_cons, ← h.1, encodeChar_charOfTwo lead second, ← ih h.2]
    rfl
  case case9.cons lead _ second _ _ third ih _ _ =>
    rw [encodeChars_cons, ← h.1, encodeChar_charOfThree lead second third, ← ih h.2]
    rfl
  case case15.cons lead _ second _ third _ _ fourth ih _ _ =>
    rw [encodeChars_cons, ← h.1, encodeChar_charOfFour lead second third fourth, ← ih h.2]
    rfl

/-- Bytes read as the characters whose bytes they are, and as nothing else. -/
theorem decodeChars_eq_ok_iff {bytes : Bytes} {chars : List Char} :
    decodeChars bytes = .ok chars ↔ bytes = encodeChars chars :=
  ⟨fun h => eq_encodeChars_of_pieces (eq_map_char_of_charsOfPieces h),
    fun h => h ▸ decodeChars_encodeChars chars⟩

theorem decode_eq_ok_iff {bytes : Bytes} {text : String} :
    decode bytes = .ok text ↔ bytes = encode text := by
  rw [decode, encode, ← decodeChars_eq_ok_iff]
  cases h : decodeChars bytes with
  | error fault => simp
  | ok chars =>
    simp only [Except.ok.injEq]
    exact ⟨fun h => h ▸ String.toList_ofList.symm, fun h => h ▸ String.ofList_toList⟩

/-! ## The UTF-8 of the core library -/

/-- A character has the bytes that the core library gives it. -/
theorem encodeChar_eq_utf8EncodeChar (c : Char) : encodeChar c = String.utf8EncodeChar c := by
  have valid := toNat_valid c
  have number : c.val.toNat = c.toNat := rfl
  unfold encodeChar String.utf8EncodeChar
  rw [number]
  generalize c.toNat = n at *
  dsimp only
  by_cases one : n < 0x80
  · rw [if_pos one, if_pos (show n ≤ 127 by omega)]
  rw [if_neg one, if_neg (show ¬ n ≤ 127 by omega)]
  by_cases two : n < 0x800
  · rw [if_pos two, if_pos (show n ≤ 2047 by omega),
      show 0xC0 + n / 64 = n / 64 % 32 + 192 by omega, Nat.add_comm 0x80]
  rw [if_neg two, if_neg (show ¬ n ≤ 2047 by omega)]
  by_cases three : n < 0x10000
  · rw [if_pos three, if_pos (show n ≤ 65535 by omega),
      show 0xE0 + n / 4096 = n / 4096 % 16 + 224 by omega, Nat.add_comm 0x80, Nat.add_comm 0x80]
  rw [if_neg three, if_neg (show ¬ n ≤ 65535 by omega),
    show 0xF0 + n / 262144 = n / 262144 % 8 + 240 by omega, Nat.add_comm 0x80, Nat.add_comm 0x80,
    Nat.add_comm 0x80]

theorem toByteArray_encodeChars (chars : List Char) :
    (encodeChars chars).toByteArray = chars.utf8Encode := by
  rw [encodeChars, List.utf8Encode, funext encodeChar_eq_utf8EncodeChar]

/-- The bytes of characters are all the bytes that the core library takes for UTF-8. -/
theorem isValidUTF8_iff {bytes : Bytes} :
    bytes.toByteArray.IsValidUTF8 ↔ ∃ chars, bytes = encodeChars chars := by
  constructor
  · rintro ⟨chars, eq⟩
    rw [← toByteArray_encodeChars] at eq
    exact ⟨chars, List.toByteArray_inj.1 eq⟩
  · rintro ⟨chars, rfl⟩
    exact ⟨chars, toByteArray_encodeChars chars⟩

end Utf8

end SealedEnvelope
