import SealedEnvelope.Json.Record
import SealedEnvelope.Json.Writer
import SealedEnvelope.Proofs.Number.ReadBack
import SealedEnvelope.Text.Utf8.Lemmas

/-!
# Documents read back

What the writer makes of texts, natural numbers and objects of them, the reader takes apart again:
every text of Unicode characters survives its escapes, and every list of members comes back in
order.  Each lemma lets any bytes follow that the writer can put there, so that the lemmas compose.
-/

set_option autoImplicit false

namespace SealedEnvelope

namespace Json

/-! ## Strings -/

theorem scanString_quote (rest : Bytes) : scanString (0x22 :: rest) = some ([], rest) := by
  rw [scanString.eq_def]
  rfl

/-- Bytes that need no escape are scanned as they are. -/
theorem scanString_plain {bytes : Bytes}
    (plain : ∀ byte ∈ bytes, byte ≠ 0x22 ∧ byte ≠ 0x5C ∧ ¬ byte < 0x20) (rest : Bytes) :
    scanString (bytes ++ rest)
      = (scanString rest).map fun (parts, rest) => (bytes.map Part.byte ++ parts, rest) := by
  induction bytes with
  | nil => simp
  | cons byte bytes ih =>
    obtain ⟨quote, escape, control⟩ := plain byte (by simp)
    rw [List.cons_append, scanString.eq_def]
    simp only [quote, escape, control, if_false]
    rw [ih fun b h => plain b (by simp [h]), Option.map_map]
    rfl

/-- A backslash and a letter are scanned as the byte that they stand for. -/
theorem scanString_letter {letter byte : UInt8} (h : letterEscape? letter = some byte)
    (rest : Bytes) :
    scanString (0x5C :: letter :: rest)
      = (scanString rest).map fun (parts, rest) => (.byte byte :: parts, rest) := by
  rw [scanString.eq_def]
  simp [h]

/-- A backslash, a `u` and four digits are scanned as the code that the digits stand for. -/
theorem scanString_code {a b c d : UInt8} {code : Nat} (h : codeOf? a b c d = some code)
    (rest : Bytes) :
    scanString (0x5C :: 0x75 :: a :: b :: c :: d :: rest)
      = (scanString rest).map fun (parts, rest) => (.code code :: parts, rest) := by
  rw [scanString.eq_def]
  simp [h, letterEscape?]

theorem bytesOfParts?_bytes (bytes : Bytes) (parts : List Part) :
    bytesOfParts? (bytes.map Part.byte ++ parts) = (bytesOfParts? parts).map (bytes ++ ·) := by
  induction bytes with
  | nil => simp
  | cons byte bytes ih =>
    rw [List.map_cons, List.cons_append, bytesOfParts?, ih, Option.map_map]
    rfl

/-- Codes that are no surrogates stand for their characters. -/
theorem bytesOfParts?_code {code : Nat} (high : ¬ (0xD800 ≤ code && code < 0xDC00) = true)
    (low : ¬ (0xDC00 ≤ code && code < 0xE000) = true) (parts : List Part) :
    bytesOfParts? (.code code :: parts)
      = (bytesOfParts? parts).map (Utf8.encodeChar (Char.ofNat code) ++ ·) := by
  rw [bytesOfParts?.eq_def]
  simp only [high, low, Bool.false_eq_true, if_false]

/-- What the scanner finds of one character: parts that spell it, whatever comes before the
closing quote. -/
def Spells (c : Char) (parts : List Part) : Prop :=
  (∀ rest, scanString (Utf8.encodeChars (escapedChar c) ++ rest)
    = (scanString rest).map fun (more, rest) => (parts ++ more, rest)) ∧
  ∀ more, bytesOfParts? (parts ++ more) = (bytesOfParts? more).map (Utf8.encodeChar c ++ ·)

/-- The escapes of one letter. -/
theorem spells_of_letter {c : Char} (letter : Char) (ascii : c.toNat < 0x80)
    (written : escapedChar c = ['\\', letter]) (letterAscii : letter.toNat < 0x80)
    (read : letterEscape? (UInt8.ofNat letter.toNat) = some (UInt8.ofNat c.toNat)) :
    Spells c [.byte (UInt8.ofNat c.toNat)] := by
  constructor
  · intro rest
    rw [written, Utf8.encodeChars_of_ascii (by simpa using letterAscii)]
    exact scanString_letter read rest
  · intro more
    rw [Utf8.encodeChar_of_ascii ascii]
    exact bytesOfParts?_bytes [UInt8.ofNat c.toNat] more

/-- The escapes of four digits. -/
theorem spells_of_code {c : Char} (control : c.toNat < 0x20)
    (written : escapedChar c
      = ['\\', 'u', '0', '0', Hex.digit (c.toNat / 16), Hex.digit (c.toNat % 16)]) :
    Spells c [.code c.toNat] := by
  obtain ⟨highAscii, high⟩ := Hex.value?_digit (c.toNat / 16) (by omega)
  obtain ⟨lowAscii, low⟩ := Hex.value?_digit (c.toNat % 16) (by omega)
  have zero : Hex.value? (UInt8.ofNat '0'.toNat) = some 0 := rfl
  constructor
  · intro rest
    rw [written, Utf8.encodeChars_of_ascii (by simp [highAscii, lowAscii])]
    refine scanString_code ?_ rest
    simp only [codeOf?, zero, high, low, Option.some.injEq]
    omega
  · intro more
    have high : ¬ (0xD800 ≤ c.toNat && c.toNat < 0xDC00) = true := by
      simp
      omega
    have low : ¬ (0xDC00 ≤ c.toNat && c.toNat < 0xE000) = true := by
      simp
      omega
    rw [List.cons_append, List.nil_append, bytesOfParts?_code high low, Char.ofNat_toNat]

/-- No byte of a character that is written as it is means anything else in a string. -/
theorem plain_of_mem_encodeChar {c : Char} (quote : c ≠ '"') (escape : c ≠ '\\')
    (control : ¬ c.toNat < 0x20) {byte : UInt8} (h : byte ∈ Utf8.encodeChar c) :
    byte ≠ 0x22 ∧ byte ≠ 0x5C ∧ ¬ byte < 0x20 := by
  by_cases ascii : c.toNat < 0x80
  · rw [Utf8.encodeChar_of_ascii ascii, List.mem_singleton] at h
    have number : byte.toNat = c.toNat := by
      rw [h, Utf8.toNat_ofNat_byte (by omega)]
    have char {d : Char} (ne : c ≠ d) : c.toNat ≠ d.toNat :=
      fun same => ne (Char.toNat_inj.1 same)
    refine ⟨?_, ?_, ?_⟩
    · rintro rfl
      exact char quote number.symm
    · rintro rfl
      exact char escape number.symm
    · rw [UInt8.lt_iff_toNat_lt, number]
      exact control
  · -- the bytes of a longer character are all above the marks
    have high := Utf8.le_of_mem_encodeChar (by omega) h
    refine ⟨?_, ?_, ?_⟩
    · rintro rfl
      exact absurd high (by decide)
    · rintro rfl
      exact absurd high (by decide)
    · rw [UInt8.lt_iff_toNat_lt]
      exact Nat.not_lt.2 (Nat.le_trans (by decide) high)

/-- The characters that are written as they are. -/
theorem spells_of_plain {c : Char} (written : escapedChar c = [c]) (quote : c ≠ '"')
    (escape : c ≠ '\\') (control : ¬ c.toNat < 0x20) :
    Spells c ((Utf8.encodeChar c).map .byte) := by
  constructor
  · intro rest
    rw [written, Utf8.encodeChars_cons, Utf8.encodeChars_nil, List.append_nil]
    exact scanString_plain (fun _ h => plain_of_mem_encodeChar quote escape control h) rest
  · intro more
    exact bytesOfParts?_bytes (Utf8.encodeChar c) more

/-- Every character is read back from the way it is written. -/
theorem exists_spells (c : Char) : ∃ parts, Spells c parts := by
  by_cases quote : c = '"'
  · subst quote
    exact ⟨_, spells_of_letter '"' (by decide) rfl (by decide) rfl⟩
  by_cases escape : c = '\\'
  · subst escape
    exact ⟨_, spells_of_letter '\\' (by decide) rfl (by decide) rfl⟩
  by_cases backspace : c = '\x08'
  · subst backspace
    exact ⟨_, spells_of_letter 'b' (by decide) rfl (by decide) rfl⟩
  by_cases feed : c = '\x0c'
  · subst feed
    exact ⟨_, spells_of_letter 'f' (by decide) rfl (by decide) rfl⟩
  by_cases newline : c = '\n'
  · subst newline
    exact ⟨_, spells_of_letter 'n' (by decide) rfl (by decide) rfl⟩
  by_cases carriage : c = '\r'
  · subst carriage
    exact ⟨_, spells_of_letter 'r' (by decide) rfl (by decide) rfl⟩
  by_cases tab : c = '\t'
  · subst tab
    exact ⟨_, spells_of_letter 't' (by decide) rfl (by decide) rfl⟩
  by_cases control : c.toNat < 0x20
  · exact ⟨_, spells_of_code control (by
      simp [escapedChar, quote, escape, backspace, feed, newline, carriage, tab, control])⟩
  · exact ⟨_, spells_of_plain (by
      simp [escapedChar, quote, escape, backspace, feed, newline, carriage, tab, control])
      quote escape control⟩

/-- A string is scanned up to its closing quote, and its parts spell what was written. -/
theorem scanString_escaped (chars : List Char) (rest : Bytes) :
    ∃ parts, scanString (Utf8.encodeChars (chars.flatMap escapedChar) ++ 0x22 :: rest)
        = some (parts, rest)
      ∧ bytesOfParts? parts = some (Utf8.encodeChars chars) := by
  induction chars with
  | nil => exact ⟨[], scanString_quote rest, rfl⟩
  | cons c chars ih =>
    obtain ⟨tail, scanTail, bytesTail⟩ := ih
    obtain ⟨head, scanHead, bytesHead⟩ := exists_spells c
    refine ⟨head ++ tail, ?_, ?_⟩
    · rw [List.flatMap_cons, Utf8.encodeChars_append, List.append_assoc, scanHead, scanTail]
      rfl
    · rw [bytesHead, bytesTail]
      rfl

/-- A text is read back from the string that it is written as. -/
theorem scanString_writeText (text : String) (rest : Bytes) :
    ∃ parts, Utf8.encodeChars (writeText text) ++ rest
        = 0x22 :: (Utf8.encodeChars (text.toList.flatMap escapedChar) ++ 0x22 :: rest)
      ∧ scanString (Utf8.encodeChars (text.toList.flatMap escapedChar) ++ 0x22 :: rest)
        = some (parts, rest)
      ∧ textOfParts? parts = some text := by
  obtain ⟨parts, scan, bytes⟩ := scanString_escaped text.toList rest
  refine ⟨parts, ?_, scan, ?_⟩
  · have quote : Utf8.encodeChar '"' = [0x22] := rfl
    simp [writeText, quote]
  · have decoded := Utf8.decode_encode text
    rw [Utf8.encode] at decoded
    simp [textOfParts?, bytes, decoded, Except.toOption]

/-! ## Numbers -/

/-- A byte that ends a written value: a comma, a closing bracket or a closing brace. -/
def Follows (next : UInt8) : Prop := next = 0x2C ∨ next = 0x5D ∨ next = 0x7D

theorem not_isDigit_of_follows {next : UInt8} (h : Follows next) : isDigit next = false := by
  rcases h with rfl | rfl | rfl <;> rfl

/-- The bytes of the digits of a number. -/
def digitBytes (n : Nat) : Bytes := (Decimal.digits n).map fun c => UInt8.ofNat c.toNat

theorem encodeChars_digits (n : Nat) : Utf8.encodeChars (Decimal.digits n) = digitBytes n := by
  refine Utf8.encodeChars_of_ascii fun c h => ?_
  have := Decimal.bounds_of_isDigit (Decimal.isDigit_of_mem_digits h)
  omega

theorem isDigit_iff {byte : UInt8} :
    isDigit byte = true ↔ 0x30 ≤ byte.toNat ∧ byte.toNat ≤ 0x39 := by
  simp only [isDigit, Bool.and_eq_true, decide_eq_true_eq, UInt8.le_iff_toNat_le]
  exact Iff.rfl

theorem isDigit_of_mem_digitBytes {n : Nat} {byte : UInt8} (h : byte ∈ digitBytes n) :
    isDigit byte = true := by
  obtain ⟨c, mem, rfl⟩ := List.mem_map.1 h
  obtain ⟨low, high⟩ := Decimal.bounds_of_isDigit (Decimal.isDigit_of_mem_digits mem)
  rw [isDigit_iff, Utf8.toNat_ofNat_byte (by omega)]
  exact ⟨low, high⟩

theorem ofDigits_digitBytes (n : Nat) : ofDigits (digitBytes n) = n := by
  have fold {chars : List Char} (all : ∀ c ∈ chars, Decimal.isDigit c = true) (start : Nat) :
      (chars.map fun c => UInt8.ofNat c.toNat).foldl
          (fun n byte => 10 * n + (byte.toNat - 48)) start
        = chars.foldl (fun n c => 10 * n + Decimal.digitValue c) start := by
    induction chars generalizing start with
    | nil => rfl
    | cons c chars ih =>
      have := Decimal.bounds_of_isDigit (all c (by simp))
      rw [List.map_cons, List.foldl_cons, List.foldl_cons, ih fun d h => all d (by simp [h]),
        Utf8.toNat_ofNat_byte (by omega)]
      rfl
  rw [ofDigits, digitBytes, fold fun c h => Decimal.isDigit_of_mem_digits h]
  exact Decimal.ofDigits_digits n

/-- Only the number zero is written with a zero in front. -/
theorem digitBytes_eq_zero {n : Nat} {others : Bytes} (h : digitBytes n = 0x30 :: others) :
    others = [] := by
  obtain ⟨c, chars, eq, digit⟩ := Decimal.digits_eq_cons n
  have := Decimal.bounds_of_isDigit digit
  rw [digitBytes, eq, List.map_cons, List.cons.injEq, ← UInt8.toNat_inj,
    Utf8.toNat_ofNat_byte (by omega)] at h
  have zero : c = '0' := Char.toNat_inj.1 h.1
  rcases Nat.eq_zero_or_pos n with rfl | pos
  · rw [Decimal.digits_zero, List.cons.injEq] at eq
    rw [← h.2, ← eq.2]
    rfl
  · refine absurd ?_ (Decimal.head?_digits_ne pos)
    rw [eq, zero]
    rfl

/-- A run of digits ends where another byte stands, or at the end. -/
theorem takeWhile_and_dropWhile_isDigit {digits rest : Bytes}
    (all : ∀ byte ∈ digits, isDigit byte = true)
    (stop : ∀ byte ∈ rest.head?, isDigit byte = false) :
    (digits ++ rest).takeWhile isDigit = digits ∧ (digits ++ rest).dropWhile isDigit = rest := by
  rw [List.takeWhile_append_of_pos all, List.dropWhile_append_of_pos all]
  cases rest with
  | nil => simp
  | cons next rest => simp [stop next rfl]

/-- The digits of a number are scanned up to what ends it. -/
theorem scanWhole_digitBytes (n : Nat) {rest : Bytes}
    (stop : ∀ byte ∈ rest.head?, isDigit byte = false) :
    scanWhole (digitBytes n ++ rest) = some (digitBytes n, rest) := by
  obtain ⟨take, drop⟩ :=
    takeWhile_and_dropWhile_isDigit (fun _ => isDigit_of_mem_digitBytes) stop
  rw [scanWhole, take, drop]
  cases eq : digitBytes n with
  | nil => exact absurd eq (by simp [digitBytes, Decimal.digits_ne_nil])
  | cons first others =>
    dsimp only
    rw [if_neg]
    rintro single
    simp only [Bool.and_eq_true, decide_eq_true_eq, Bool.not_eq_true', List.isEmpty_eq_false_iff]
      at single
    rw [single.1] at eq
    exact single.2 (digitBytes_eq_zero eq)

theorem scanUnsigned_digitBytes (n : Nat) {next : UInt8} (h : Follows next) (rest : Bytes) :
    scanUnsigned (digitBytes n ++ next :: rest) = some (some n, next :: rest) := by
  have stop : ∀ byte ∈ (next :: rest).head?, isDigit byte = false := by
    rintro _ ⟨⟩
    exact not_isDigit_of_follows h
  have fraction : afterFraction? (next :: rest) = some (next :: rest) := by
    rcases h with rfl | rfl | rfl <;> rfl
  have exponent : afterExponent? (next :: rest) = some (next :: rest) := by
    rcases h with rfl | rfl | rfl <;> rfl
  simp [scanUnsigned, scanWhole_digitBytes n stop, fraction, exponent, ofDigits_digitBytes]

/-! ## Values -/

/-- A text that reads as a value wherever a value may end. -/
def ReadsAs (text : List Char) (value : Value) : Prop :=
  ∀ (fuel : Nat) (next : UInt8), Follows next → ∀ rest : Bytes,
    readValue (fuel + 1) (Utf8.encodeChars text ++ next :: rest) = (value, next :: rest)

theorem skipSpace_cons {byte : UInt8} (h : isSpace byte = false) (rest : Bytes) :
    skipSpace (byte :: rest) = byte :: rest := by
  simp [skipSpace, h]

theorem readsAs_writeText (text : String) : ReadsAs (writeText text) (.string (some text)) := by
  intro fuel next _ rest
  obtain ⟨parts, written, scan, spelled⟩ := scanString_writeText text (next :: rest)
  rw [written, readValue, skipSpace_cons rfl]
  simp [scan, spelled]

/-- A byte that is no digit differs from one that is. -/
theorem ne_of_isDigit {digit : UInt8} (h : isDigit digit = true) {byte : UInt8}
    (other : byte.toNat < 48 ∨ 57 < byte.toNat) : digit ≠ byte := by
  have range := isDigit_iff.1 h
  rintro rfl
  omega

theorem scanNumber_of_digit {first : UInt8} (digit : isDigit first = true) (rest : Bytes) :
    scanNumber (first :: rest) = scanUnsigned (first :: rest) := by
  unfold scanNumber
  split
  · rename_i h
    exact absurd (List.cons.inj h).1 (ne_of_isDigit digit (by decide))
  · rfl

/-- A number starts with neither a word nor a bracket, so that it is read as a number. -/
theorem readsAs_writeNatural (n : Nat) : ReadsAs (writeNatural n) (.number (some n)) := by
  intro fuel next follows rest
  rw [writeNatural, encodeChars_digits]
  have number := scanUnsigned_digitBytes n follows rest
  cases eq : digitBytes n with
  | nil => exact absurd eq (by simp [digitBytes, Decimal.digits_ne_nil])
  | cons first others =>
    have digit : isDigit first = true := isDigit_of_mem_digitBytes (by rw [eq]; simp)
    have ne (byte : UInt8) (other : byte.toNat < 48 ∨ 57 < byte.toNat) : first ≠ byte :=
      ne_of_isDigit digit other
    have space : isSpace first = false := by
      simp [isSpace, ne 0x20 (by decide), ne 0x09 (by decide),
        ne 0x0A (by decide), ne 0x0D (by decide)]
    rw [eq, List.cons_append, ← scanNumber_of_digit digit] at number
    rw [List.cons_append, readValue, skipSpace_cons space]
    simp only [ne 0x22 (by decide), ne 0x5B (by decide),
      ne 0x7B (by decide), if_false]
    simp [readScalar, afterWord?, number, Ne.symm (ne 0x6E (by decide)),
      Ne.symm (ne 0x74 (by decide)), Ne.symm (ne 0x66 (by decide))]

/-! ## Objects -/

/-- The members of an object that was read to its end. -/
def Members.ofList : List (String × Value) → Members
  | [] => .closed
  | (key, value) :: rest => .cons (some key) value (ofList rest)

/-- A member of an object as it is written, with the value that is read. -/
structure WrittenMember where
  name : String
  text : List Char
  value : Value
  reads : ReadsAs text value

namespace WrittenMember

/-- A member as the writer takes it. -/
def written (member : WrittenMember) : String × List Char := (member.name, member.text)

/-- A member as the reader gives it. -/
def read (member : WrittenMember) : String × Value := (member.name, member.value)

end WrittenMember

/-- A member between its neighbours. -/
def memberText (member : WrittenMember) : List Char := writeText member.name ++ ':' :: member.text

/-- A member is read, and after it those that follow. -/
theorem readMember_memberText (member : WrittenMember) (fuel : Nat) {next : UInt8}
    (follows : Follows next) (rest : Bytes) :
    readMember (fuel + 2) (Utf8.encodeChars (memberText member) ++ next :: rest)
      = (.cons (some member.name) member.value (readMoreMembers (fuel + 1) (next :: rest)).1,
        (readMoreMembers (fuel + 1) (next :: rest)).2) := by
  have colon : Utf8.encodeChar ':' = [0x3A] := rfl
  obtain ⟨parts, written, scan, spelled⟩ := scanString_writeText member.name
    (0x3A :: (Utf8.encodeChars member.text ++ next :: rest))
  have value := member.reads fuel next follows rest
  rw [memberText, Utf8.encodeChars_append, Utf8.encodeChars_cons, colon, List.append_assoc,
    List.append_assoc, List.singleton_append, written, readMember, skipSpace_cons rfl]
  simp only [if_true, scan, skipSpace_cons (show isSpace 0x3A = false from rfl), spelled, value]

/-- Members are read in the order in which they are written.  Of two calls in a row one takes a
member, so that twice their number is fuel enough. -/
theorem readMember_writeSeparated (first : WrittenMember) (others : List WrittenMember) {fuel : Nat}
    (enough : 2 * (others.length + 1) ≤ fuel) (rest : Bytes) :
    readMember fuel
        (Utf8.encodeChars (writeSeparated ((first :: others).map memberText)) ++ 0x7D :: rest)
      = (Members.ofList ((first :: others).map WrittenMember.read), rest) := by
  induction others generalizing first fuel with
  | nil =>
    obtain ⟨fuel, rfl⟩ : ∃ f, fuel = f + 2 := ⟨fuel - 2, by omega⟩
    have closed : readMoreMembers (fuel + 1) (0x7D :: rest) = (.closed, rest) := by
      rw [readMoreMembers, skipSpace_cons rfl]
      rfl
    simp only [List.map_cons, List.map_nil, writeSeparated]
    rw [readMember_memberText first fuel (.inr (.inr rfl)) rest, closed]
    rfl
  | cons second others ih =>
    obtain ⟨fuel, rfl⟩ : ∃ f, fuel = f + 2 := ⟨fuel - 2, by omega⟩
    have comma : Utf8.encodeChar ',' = [0x2C] := rfl
    have more (bytes : Bytes) :
        readMoreMembers (fuel + 1) (0x2C :: bytes) = readMember fuel bytes := by
      rw [readMoreMembers, skipSpace_cons rfl]
      rfl
    have left : 2 * (others.length + 1) ≤ fuel := by
      rw [List.length_cons] at enough
      omega
    have tail := ih second left
    simp only [List.map_cons, writeSeparated] at tail ⊢
    rw [Utf8.encodeChars_append, Utf8.encodeChars_cons, comma, List.append_assoc, List.append_assoc,
      List.singleton_append, readMember_memberText first fuel (.inl rfl), more, tail]
    rfl

/-- The members of an object start with the quote of the first name. -/
theorem writeSeparated_eq_quote (first : WrittenMember) (others : List WrittenMember) :
    ∃ tail, writeSeparated ((first :: others).map memberText) = '"' :: tail := by
  cases others with
  | nil => exact ⟨_, rfl⟩
  | cons second others => exact ⟨_, rfl⟩

/-- All members of an object are read up to its closing brace, also if there are none. -/
theorem readMembers_writeSeparated (members : List WrittenMember) {fuel : Nat}
    (enough : 2 * members.length < fuel) (rest : Bytes) :
    readMembers fuel (Utf8.encodeChars (writeSeparated (members.map memberText)) ++ 0x7D :: rest)
      = (Members.ofList (members.map WrittenMember.read), rest) := by
  obtain ⟨fuel, rfl⟩ : ∃ f, fuel = f + 1 := ⟨fuel - 1, by omega⟩
  cases members with
  | nil =>
    rw [List.map_nil, writeSeparated, Utf8.encodeChars_nil, List.nil_append, readMembers,
      skipSpace_cons rfl]
    rfl
  | cons first others =>
    have left : 2 * (others.length + 1) ≤ fuel := by
      rw [List.length_cons] at enough
      omega
    have read := readMember_writeSeparated first others left rest
    obtain ⟨tail, start⟩ := writeSeparated_eq_quote first others
    have quote : Utf8.encodeChar '"' = [0x22] := rfl
    rw [start, Utf8.encodeChars_cons, quote, List.append_assoc, List.singleton_append] at read ⊢
    rw [readMembers, skipSpace_cons rfl, ← read]
    rfl

/-- There are bytes enough between the braces to count the members. -/
theorem length_le_writeSeparated (parts : List (List Char)) :
    parts.length ≤ (Utf8.encodeChars (writeSeparated parts)).length + 1 := by
  fun_induction writeSeparated parts with
  | case1 => simp
  | case2 part => simp
  | case3 part next rest ih =>
    have comma : Utf8.encodeChar ',' = [0x2C] := rfl
    rw [Utf8.encodeChars_append, Utf8.encodeChars_cons, comma, List.length_append,
      List.length_append, List.length_cons, List.length_singleton]
    omega

theorem readValue_object (fuel : Nat) (bytes : Bytes) :
    readValue (fuel + 1) (0x7B :: bytes)
      = (.object (readMembers fuel bytes).1, (readMembers fuel bytes).2) := by
  rw [readValue, skipSpace_cons rfl]
  rfl

/-- An object of written members is read back with nothing left over. -/
theorem read_writeObject (members : List WrittenMember) :
    read (Utf8.encodeChars (writeObject (members.map WrittenMember.written)))
      = (.object (Members.ofList (members.map WrittenMember.read)), []) := by
  have opening : Utf8.encodeChar '\x7b' = [0x7B] := rfl
  have closing : Utf8.encodeChar '\x7d' = [0x7D] := rfl
  have braced : writeObject (members.map WrittenMember.written)
      = '\x7b' :: (writeSeparated (members.map memberText) ++ ['\x7d']) := by
    rw [writeObject, List.map_map]
    rfl
  have bytes : Utf8.encodeChars (writeObject (members.map WrittenMember.written))
      = 0x7B :: (Utf8.encodeChars (writeSeparated (members.map memberText)) ++ [0x7D]) := by
    rw [braced, Utf8.encodeChars_cons, opening, Utf8.encodeChars_append, Utf8.encodeChars_cons,
      closing]
    rfl
  have count := length_le_writeSeparated (members.map memberText)
  rw [List.length_map] at count
  have enough : 2 * members.length
      < 2 * (0x7B :: (Utf8.encodeChars (writeSeparated (members.map memberText)) ++ [0x7D])).length
        + 1 := by
    rw [List.length_cons, List.length_append, List.length_singleton]
    omega
  rw [read, bytes, readValue_object, readMembers_writeSeparated members enough []]

/-! ## Records -/

namespace Record

/-- Members of an object that its record admits, no name twice. -/
structure Admitted (fields : List Field) (members : Record) : Prop where
  admits : ∀ member ∈ members, ∃ field,
    fields.find? (fun field => field.name = member.1) = some field ∧ field.admits member.2 = true
  distinct : (members.map Prod.fst).Nodup

theorem value?_cons (key : String) (value : Value) (found : Record) (name : String) :
    value? ((key, value) :: found) name = if name = key then some value else found.value? name := by
  rw [value?, List.lookup_cons]
  by_cases h : name = key
  · rw [if_pos h, h, beq_self_eq_true]
  · rw [if_neg h, beq_false_of_ne h]
    rfl

theorem value?_append (left right : Record) (name : String) :
    value? (left ++ right) name = (left.value? name).or (right.value? name) := List.lookup_append

theorem value?_eq_none_of_not_mem {found : Record} {name : String}
    (h : name ∉ found.map Prod.fst) : found.value? name = none := by
  rw [value?, List.lookup_eq_none_iff]
  intro member mem
  refine bne_iff_ne.2 ?_
  rintro rfl
  exact h (List.mem_map_of_mem mem)

/-- Admitted members are added to the fields already found, which are others. -/
theorem ofMembers_ofList {fields : List Field} {members : Record}
    (admitted : Admitted fields members) {found : Record}
    (fresh : ∀ name ∈ members.map Prod.fst, found.value? name = none) :
    ∃ record, ofMembers fields found (Members.ofList members) = .ok record
      ∧ ∀ name, record.value? name = (members.value? name).or (found.value? name) := by
  induction members generalizing found with
  | nil => exact ⟨found, rfl, fun name => rfl⟩
  | cons member members ih =>
    obtain ⟨key, value⟩ := member
    obtain ⟨admits, distinct⟩ := admitted
    rw [List.map_cons, List.nodup_cons] at distinct
    obtain ⟨field, find, allowed⟩ := admits (key, value) (by simp)
    have free : found.value? key = none := fresh key (by simp)
    have others : Admitted fields members := ⟨fun m h => admits m (by simp [h]), distinct.2⟩
    have still : ∀ name ∈ members.map Prod.fst, value? ((key, value) :: found) name = none := by
      intro name mem
      rw [value?_cons, if_neg, fresh name (by simp [mem])]
      rintro rfl
      exact distinct.1 mem
    obtain ⟨record, eq, agrees⟩ := ih others still
    refine ⟨record, ?_, ?_⟩
    · rw [Members.ofList, ofMembers]
      simp only [find, free, allowed]
      exact eq
    · intro name
      rw [agrees, value?_cons, value?_cons]
      by_cases h : name = key
      · subst h
        rw [value?_eq_none_of_not_mem distinct.1]
        simp
      · simp [h]

/-- A record with admitted members has them as its fields, and no others. -/
theorem ofValue_object {fields : List Field} {members : Record}
    (admitted : Admitted fields members) :
    ∃ record, ofValue fields (.object (Members.ofList members)) = .ok record
      ∧ ∀ name, record.value? name = members.value? name := by
  obtain ⟨record, eq, agrees⟩ := ofMembers_ofList admitted fun _ _ => List.lookup_nil
  refine ⟨record, eq, fun name => (agrees name).trans ?_⟩
  exact Option.or_none

/-! Fields as the interpretation of a record asks for them. -/

theorem text_of_value? {record : Record} {name text : String}
    (h : record.value? name = some (.string (some text))) : record.text name = .ok text := by
  rw [Record.text, h]

theorem text?_of_value? {record : Record} {name : String} {text : Option String}
    (h : record.value? name = text.map fun text => .string (some text)) :
    record.text? name = text := by
  rw [Record.text?, h]
  cases text with
  | none => rfl
  | some text => rfl

theorem natural_of_value? {record : Record} {name : String} {n : Nat}
    (h : record.value? name = some (.number (some n))) : record.natural name = .ok n := by
  rw [Record.natural, h]

theorem natural?_of_value? {record : Record} {name : String} {n : Nat}
    (h : record.value? name = some (.number (some n))) : record.natural? name = some n := by
  rw [Record.natural?, h]

end Record

/-- What is made of a written object is what is made of its members. -/
theorem document_writeObject {α : Type} (interpret : Value → Except Fault α)
    (members : List WrittenMember) :
    document interpret (Utf8.encodeChars (writeObject (members.map WrittenMember.written)))
      = interpret (.object (Members.ofList (members.map WrittenMember.read))) := by
  rw [document, read_writeObject]
  dsimp only
  cases interpret (.object (Members.ofList (members.map WrittenMember.read))) with
  | ok result => rfl
  | error fault => rfl

end Json

end SealedEnvelope
