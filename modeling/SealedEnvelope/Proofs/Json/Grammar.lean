import SealedEnvelope.Proofs.Json.ReadBack

/-!
# The grammar of documents

Which bytes are a document, and the value that they denote, as a relation that the reader has no
part in: spaces between any two tokens, each character of a string as it is or escaped in any way,
numbers in any notation.  The reader gives the value of every document, and that of a value inside a
document whatever follows it.
-/

set_option autoImplicit false

namespace SealedEnvelope

namespace Json

/-! ## Spaces -/

/-- Spaces, tabs, line feeds and carriage returns. -/
def IsBlank (bytes : Bytes) : Prop :=
  ∀ byte ∈ bytes, byte = 0x20 ∨ byte = 0x09 ∨ byte = 0x0A ∨ byte = 0x0D

instance (bytes : Bytes) : Decidable (IsBlank bytes) := List.decidableBAll _ bytes

/-! ## Strings -/

/-- The letters that a backslash makes stand for a character. -/
def escapes : List (Char × Char) :=
  [('"', '"'), ('\\', '\\'), ('/', '/'), ('b', '\x08'), ('f', '\x0c'), ('n', '\n'), ('r', '\r'),
    ('t', '\t')]

/-- A hexadecimal digit of either case. -/
structure HexDigit where
  byte : UInt8
  value : Nat
  reads : Hex.value? byte = some value

/-- Whether a character may stand for itself in a string. -/
def isPlain (c : Char) : Bool := c ≠ '"' && c ≠ '\\' && 0x20 ≤ c.toNat

/-- A piece of a string as it is written. -/
inductive Piece where
  /-- A character as it is. -/
  | plain (c : Char) (allowed : isPlain c = true)
  /-- A backslash and a letter. -/
  | escape (letter c : Char) (listed : (letter, c) ∈ escapes)
  /-- A backslash, a `u` and four digits. -/
  | code (a b c d : HexDigit)

/-- The number that four digits stand for. -/
def codeUnit (a b c d : HexDigit) : Nat :=
  ((a.value * 16 + b.value) * 16 + c.value) * 16 + d.value

/-- The bytes of a piece. -/
def Piece.bytes : Piece → Bytes
  | .plain c _ => Utf8.encodeChar c
  | .escape letter _ _ => 0x5C :: Utf8.encodeChar letter
  | .code a b c d => [0x5C, 0x75, a.byte, b.byte, c.byte, d.byte]

/-- Whether a code is the first half of a pair. -/
def isFirstHalf (code : Nat) : Bool := 0xD800 ≤ code && code < 0xDC00

/-- Whether a code is the second half of a pair. -/
def isSecondHalf (code : Nat) : Bool := 0xDC00 ≤ code && code < 0xE000

/-- The character that two halves stand for. -/
def charOfHalves (first second : Nat) : Char :=
  Char.ofNat (0x10000 + (first - 0xD800) * 0x400 + (second - 0xDC00))

/-- The characters that pieces spell.  Half of a pair alone spells none. -/
def charsOf? : List Piece → Option (List Char)
  | [] => some []
  | .plain c _ :: rest => (charsOf? rest).map (c :: ·)
  | .escape _ c _ :: rest => (charsOf? rest).map (c :: ·)
  | .code a b c d :: rest =>
    if isFirstHalf (codeUnit a b c d) then
      match rest with
      | .code a' b' c' d' :: rest =>
        if isSecondHalf (codeUnit a' b' c' d') then
          (charsOf? rest).map (charOfHalves (codeUnit a b c d) (codeUnit a' b' c' d') :: ·)
        else none
      | _ => none
    else if isSecondHalf (codeUnit a b c d) then none
    else (charsOf? rest).map (Char.ofNat (codeUnit a b c d) :: ·)

/-- The text that pieces spell. -/
def textOf? (pieces : List Piece) : Option String := (charsOf? pieces).map String.ofList

/-! ## Numbers -/

/-- One decimal digit or more. -/
def IsDigits (bytes : Bytes) : Prop :=
  bytes ≠ [] ∧ ∀ byte ∈ bytes, 0x30 ≤ byte.toNat ∧ byte.toNat ≤ 0x39

/-- The part of a number from its point, if there is one. -/
inductive IsFraction : Bytes → Prop
  | absent : IsFraction []
  | present {digits : Bytes} : IsDigits digits → IsFraction (0x2E :: digits)

/-- The power of ten of a number, if there is one. -/
inductive IsExponent : Bytes → Prop
  | absent : IsExponent []
  | present {letter : UInt8} {sign digits : Bytes} : letter = 0x65 ∨ letter = 0x45 →
      sign = [] ∨ sign = [0x2B] ∨ sign = [0x2D] → IsDigits digits →
      IsExponent (letter :: (sign ++ digits))

/-- A number, and the natural number that it is if it is written in digits alone. -/
inductive DenotesNumber : Bytes → Option Nat → Prop
  | natural (n : Nat) : DenotesNumber (digitBytes n) (some n)
  | decimal (n : Nat) {fraction exponent : Bytes} : IsFraction fraction → IsExponent exponent →
      fraction ++ exponent ≠ [] → DenotesNumber (digitBytes n ++ (fraction ++ exponent)) none
  | negative (n : Nat) {fraction exponent : Bytes} : IsFraction fraction → IsExponent exponent →
      DenotesNumber (0x2D :: (digitBytes n ++ (fraction ++ exponent))) none

/-! ## Values -/

mutual

/-- The bytes of a value, from its first to its last. -/
inductive Denotes : Bytes → Value → Prop
  | null : Denotes [0x6E, 0x75, 0x6C, 0x6C] .null
  | true : Denotes [0x74, 0x72, 0x75, 0x65] (.bool true)
  | false : Denotes [0x66, 0x61, 0x6C, 0x73, 0x65] (.bool false)
  | number {bytes : Bytes} {natural : Option Nat} : DenotesNumber bytes natural →
      Denotes bytes (.number natural)
  | string (pieces : List Piece) :
      Denotes (0x22 :: (pieces.flatMap Piece.bytes ++ [0x22])) (.string (textOf? pieces))
  | array {bytes : Bytes} {items : Items} : DenotesItems bytes items →
      Denotes (0x5B :: bytes) (.array items)
  | object {bytes : Bytes} {members : Members} : DenotesMembers bytes members →
      Denotes (0x7B :: bytes) (.object members)

/-- The bytes of an array after its opening bracket. -/
inductive DenotesItems : Bytes → Items → Prop
  | closed {space : Bytes} : IsBlank space → DenotesItems (space ++ [0x5D]) .closed
  | cons {space head tail : Bytes} {value : Value} {items : Items} : IsBlank space →
      Denotes head value → DenotesMoreItems tail items →
      DenotesItems (space ++ (head ++ tail)) (.cons value items)

/-- The bytes of an array after one of its items. -/
inductive DenotesMoreItems : Bytes → Items → Prop
  | closed {space : Bytes} : IsBlank space → DenotesMoreItems (space ++ [0x5D]) .closed
  | cons {after space head tail : Bytes} {value : Value} {items : Items} : IsBlank after →
      IsBlank space → Denotes head value → DenotesMoreItems tail items →
      DenotesMoreItems (after ++ 0x2C :: (space ++ (head ++ tail))) (.cons value items)

/-- The bytes of an object after its opening brace. -/
inductive DenotesMembers : Bytes → Members → Prop
  | closed {space : Bytes} : IsBlank space → DenotesMembers (space ++ [0x7D]) .closed
  | member {bytes : Bytes} {members : Members} : DenotesMember bytes members →
      DenotesMembers bytes members

/-- The bytes of a member and of those after it. -/
inductive DenotesMember : Bytes → Members → Prop
  | cons {before after space head tail : Bytes} (pieces : List Piece) {value : Value}
      {members : Members} : IsBlank before → IsBlank after → IsBlank space →
      Denotes head value → DenotesMoreMembers tail members →
      DenotesMember (before ++ 0x22 :: (pieces.flatMap Piece.bytes ++ 0x22 :: (after ++
        0x3A :: (space ++ (head ++ tail))))) (.cons (textOf? pieces) value members)

/-- The bytes of an object after one of its members. -/
inductive DenotesMoreMembers : Bytes → Members → Prop
  | closed {space : Bytes} : IsBlank space → DenotesMoreMembers (space ++ [0x7D]) .closed
  | member {after bytes : Bytes} {members : Members} : IsBlank after →
      DenotesMember bytes members → DenotesMoreMembers (after ++ 0x2C :: bytes) members

end

/-- Characters of which none needs an escape are a string as they are. -/
theorem denotes_plain {chars : List Char} (plain : chars.all isPlain = true) :
    Denotes (0x22 :: (Utf8.encodeChars chars ++ [0x22]))
      (.string (some (String.ofList chars))) := by
  have spelled : ∃ pieces, pieces.flatMap Piece.bytes = Utf8.encodeChars chars
      ∧ charsOf? pieces = some chars := by
    induction chars with
    | nil => exact ⟨[], rfl, rfl⟩
    | cons c chars ih =>
      obtain ⟨allowed, others⟩ := Bool.and_eq_true_iff.1 plain
      obtain ⟨pieces, bytes, spells⟩ := ih others
      refine ⟨.plain c allowed :: pieces, ?_, ?_⟩
      · rw [List.flatMap_cons, bytes, Utf8.encodeChars_cons]
        rfl
      · rw [charsOf?, spells]
        rfl
  obtain ⟨pieces, bytes, spells⟩ := spelled
  have string := Denotes.string pieces
  rwa [bytes, textOf?, spells] at string

/-- The bytes of a document: a value with spaces around it. -/
inductive DenotesDocument : Bytes → Value → Prop
  | mk {before bytes after : Bytes} {value : Value} : IsBlank before → Denotes bytes value →
      IsBlank after → DenotesDocument (before ++ (bytes ++ after)) value

/-! ## Reading strings -/

theorem isPlain_iff {c : Char} :
    isPlain c = true ↔ c ≠ '"' ∧ c ≠ '\\' ∧ ¬ c.toNat < 0x20 := by
  simp only [isPlain, Bool.and_eq_true, decide_eq_true_eq, and_assoc, Nat.not_lt]

/-- What the reader finds of a piece. -/
def Piece.parts : Piece → List Part
  | .plain c _ => (Utf8.encodeChar c).map .byte
  | .escape _ c _ => [.byte (UInt8.ofNat c.toNat)]
  | .code a b c d => [.code (codeUnit a b c d)]

/-- The letters after a backslash are of ASCII, and each is read as its character. -/
theorem letterEscape?_of_mem_escapes : ∀ listed ∈ escapes,
    listed.1.toNat < 0x80 ∧ listed.2.toNat < 0x80
      ∧ letterEscape? (UInt8.ofNat listed.1.toNat) = some (UInt8.ofNat listed.2.toNat) := by
  decide

theorem scanString_piece (piece : Piece) (rest : Bytes) :
    scanString (piece.bytes ++ rest)
      = (scanString rest).map fun (parts, rest) => (piece.parts ++ parts, rest) := by
  cases piece with
  | plain c allowed =>
    obtain ⟨quote, backslash, control⟩ := isPlain_iff.1 allowed
    exact scanString_plain (fun _ mem => plain_of_mem_encodeChar quote backslash control mem) rest
  | escape letter c listed =>
    obtain ⟨letterAscii, _, read⟩ := letterEscape?_of_mem_escapes _ listed
    rw [Piece.bytes, Utf8.encodeChar_of_ascii letterAscii]
    exact scanString_letter read rest
  | code a b c d =>
    refine scanString_code ?_ rest
    simp only [codeOf?, a.reads, b.reads, c.reads, d.reads, codeUnit]

/-- A string is scanned up to its closing quote. -/
theorem scanString_pieces (pieces : List Piece) (rest : Bytes) :
    scanString (pieces.flatMap Piece.bytes ++ 0x22 :: rest)
      = some (pieces.flatMap Piece.parts, rest) := by
  induction pieces with
  | nil => exact scanString_quote rest
  | cons piece pieces ih =>
    rw [List.flatMap_cons, List.append_assoc, scanString_piece, ih]
    rfl

/-- Where a character is spelled, its bytes are found, and then those of the others. -/
theorem map_encodeChars_cons (c : Char) (chars : Option (List Char)) :
    (chars.map (c :: ·)).map Utf8.encodeChars
      = (chars.map Utf8.encodeChars).map (Utf8.encodeChar c ++ ·) := by
  rw [Option.map_map, Option.map_map]
  refine congrArg (fun change => chars.map change) (funext fun others => ?_)
  exact Utf8.encodeChars_cons c others

/-- Two halves spell one character. -/
theorem bytesOfParts?_halves {high low : Nat} (first : isFirstHalf high = true)
    (second : isSecondHalf low = true) (parts : List Part) :
    bytesOfParts? (.code high :: .code low :: parts)
      = (bytesOfParts? parts).map (Utf8.encodeChar (charOfHalves high low) ++ ·) := by
  unfold isFirstHalf at first
  unfold isSecondHalf at second
  rw [bytesOfParts?.eq_def]
  simp only [first, second, if_true]
  rfl

/-- The first half of a pair spells nothing if the second half does not follow. -/
theorem bytesOfParts?_firstHalf {high : Nat} (first : isFirstHalf high = true) {parts : List Part}
    (alone : ∀ low rest, parts = .code low :: rest → isSecondHalf low = false) :
    bytesOfParts? (.code high :: parts) = none := by
  unfold isFirstHalf at first
  rw [bytesOfParts?.eq_def]
  simp only [first, if_true]
  split
  · rename_i low rest
    have other := alone low rest rfl
    unfold isSecondHalf at other
    simp only [other, Bool.false_eq_true, if_false]
  · rfl

theorem bytesOfParts?_secondHalf {low : Nat} (first : ¬ isFirstHalf low = true)
    (second : isSecondHalf low = true) (parts : List Part) :
    bytesOfParts? (.code low :: parts) = none := by
  unfold isFirstHalf at first
  unfold isSecondHalf at second
  rw [bytesOfParts?.eq_def]
  simp only [first, second, Bool.false_eq_true, if_true, if_false]

/-- What is found of pieces starts with a code only if they do. -/
theorem eq_code_of_parts {pieces : List Piece} {low : Nat} {rest : List Part}
    (h : pieces.flatMap Piece.parts = .code low :: rest) :
    ∃ a b c d others, pieces = .code a b c d :: others ∧ codeUnit a b c d = low := by
  cases pieces with
  | nil => contradiction
  | cons piece pieces =>
    rw [List.flatMap_cons] at h
    cases piece with
    | plain c =>
      cases bytes : Utf8.encodeChar c with
      | nil => exact absurd bytes (Utf8.encodeChar_ne_nil c)
      | cons byte others =>
        rw [Piece.parts, bytes, List.map_cons, List.cons_append] at h
        cases h
    | escape letter c =>
      rw [Piece.parts, List.cons_append] at h
      cases h
    | code a b c d =>
      rw [Piece.parts, List.cons_append] at h
      cases h
      exact ⟨a, b, c, d, pieces, rfl, rfl⟩

/-- The parts of pieces spell the characters that the pieces spell. -/
theorem bytesOfParts?_pieces (pieces : List Piece) :
    bytesOfParts? (pieces.flatMap Piece.parts) = (charsOf? pieces).map Utf8.encodeChars := by
  fun_induction charsOf? pieces with
  | case1 => rfl
  | case2 c allowed rest ih =>
    rw [List.flatMap_cons, Piece.parts, bytesOfParts?_bytes, ih, map_encodeChars_cons]
  | case3 letter c listed rest ih =>
    obtain ⟨_, ascii, _⟩ := letterEscape?_of_mem_escapes _ listed
    rw [List.flatMap_cons, Piece.parts, map_encodeChars_cons, ← ih, Utf8.encodeChar_of_ascii ascii]
    exact bytesOfParts?_bytes [UInt8.ofNat c.toNat] _
  | case4 a b c d first a' b' c' d' rest second ih =>
    rw [List.flatMap_cons, List.flatMap_cons, Piece.parts, Piece.parts, map_encodeChars_cons, ← ih]
    exact bytesOfParts?_halves first second _
  | case5 a b c d first a' b' c' d' rest second =>
    rw [List.flatMap_cons, List.flatMap_cons, Piece.parts, Piece.parts]
    refine bytesOfParts?_firstHalf first ?_
    rintro low others ⟨⟩
    exact Bool.eq_false_iff.2 second
  | case6 a b c d rest first alone =>
    rw [List.flatMap_cons, Piece.parts]
    refine bytesOfParts?_firstHalf first ?_
    intro low others found
    obtain ⟨a', b', c', d', pieces, rfl, _⟩ := eq_code_of_parts found
    exact (alone a' b' c' d' pieces rfl).elim
  | case7 a b c d rest first second =>
    exact bytesOfParts?_secondHalf first second _
  | case8 a b c d rest first second ih =>
    rw [List.flatMap_cons, Piece.parts, map_encodeChars_cons, ← ih]
    exact bytesOfParts?_code first second _

/-- The parts of pieces spell the text that the pieces spell. -/
theorem textOfParts?_pieces (pieces : List Piece) :
    textOfParts? (pieces.flatMap Piece.parts) = textOf? pieces := by
  rw [textOfParts?, bytesOfParts?_pieces, textOf?]
  cases charsOf? pieces with
  | none => rfl
  | some chars =>
    have decoded := Utf8.decode_encode (String.ofList chars)
    rw [Utf8.encode, String.toList_ofList] at decoded
    simp only [Option.map_some, decoded]
    rfl

/-! ## Reading numbers -/

/-- Bytes before which a value may end: none, or a space or a mark at first. -/
def Ends (rest : Bytes) : Prop := ∀ byte ∈ rest.head?, isSpace byte = true ∨ Follows byte

theorem ends_nil : Ends [] := by
  rintro _ ⟨⟩

theorem isSpace_iff {byte : UInt8} :
    isSpace byte = true ↔ byte = 0x20 ∨ byte = 0x09 ∨ byte = 0x0A ∨ byte = 0x0D := by
  simp only [isSpace, Bool.or_eq_true, decide_eq_true_eq, or_assoc]

theorem isSpace_of_mem_blank {space : Bytes} (blank : IsBlank space) {byte : UInt8}
    (mem : byte ∈ space) : isSpace byte = true := isSpace_iff.2 (blank byte mem)

/-- Spaces are passed over up to a byte that is none. -/
theorem skipSpace_blank {space : Bytes} (blank : IsBlank space) {byte : UInt8}
    (other : isSpace byte = false) (rest : Bytes) :
    skipSpace (space ++ byte :: rest) = byte :: rest := by
  rw [skipSpace, List.dropWhile_append_of_pos fun _ => isSpace_of_mem_blank blank]
  exact skipSpace_cons other rest

theorem skipSpace_of_blank {space : Bytes} (blank : IsBlank space) : skipSpace space = [] := by
  have passed : skipSpace (space ++ []) = [] :=
    List.dropWhile_append_of_pos fun _ => isSpace_of_mem_blank blank
  rwa [List.append_nil] at passed

/-- No value goes on with the first of these bytes. -/
theorem marks_of_ends {rest : Bytes} (ends : Ends rest) : ∀ byte ∈ rest.head?,
    isDigit byte = false ∧ byte ≠ 0x2E ∧ byte ≠ 0x65 ∧ byte ≠ 0x45 := by
  intro byte first
  rcases ends byte first with space | mark
  · rcases isSpace_iff.1 space with rfl | rfl | rfl | rfl <;> decide
  · rcases mark with rfl | rfl | rfl <;> decide

theorem isDigit_of_isDigits {digits : Bytes} (h : IsDigits digits) :
    ∀ byte ∈ digits, isDigit byte = true := by
  exact fun byte mem => isDigit_iff.2 (h.2 byte mem)

/-- Digits that must be there are passed over. -/
theorem takeWhile_and_dropWhile_of_isDigits {digits rest : Bytes} (h : IsDigits digits)
    (stop : ∀ byte ∈ rest.head?, isDigit byte = false) :
    ((digits ++ rest).takeWhile isDigit).isEmpty = false
      ∧ (digits ++ rest).dropWhile isDigit = rest := by
  obtain ⟨take, drop⟩ := takeWhile_and_dropWhile_isDigit (isDigit_of_isDigits h) stop
  rw [take]
  exact ⟨List.isEmpty_eq_false_iff.2 h.1, drop⟩

theorem afterSign_append {sign digits rest : Bytes}
    (signed : sign = [] ∨ sign = [0x2B] ∨ sign = [0x2D]) (h : IsDigits digits) :
    afterSign (sign ++ (digits ++ rest)) = digits ++ rest := by
  rcases signed with rfl | rfl | rfl
  · cases digits with
    | nil => exact absurd rfl h.1
    | cons first others =>
      have digit := isDigit_of_isDigits h first (by simp)
      have plus : first ≠ 0x2B := ne_of_isDigit digit (by decide)
      have minus : first ≠ 0x2D := ne_of_isDigit digit (by decide)
      simp [afterSign, plus, minus]
  · rfl
  · rfl

theorem afterExponent?_append {exponent rest : Bytes} (h : IsExponent exponent)
    (ends : Ends rest) : afterExponent? (exponent ++ rest) = some rest := by
  have marks := marks_of_ends ends
  cases h with
  | absent =>
    cases rest with
    | nil => rfl
    | cons byte rest =>
      obtain ⟨_, _, small, great⟩ := marks byte rfl
      simp [afterExponent?, small, great]
  | @present letter sign digits power signed isDigits =>
    have passed := takeWhile_and_dropWhile_of_isDigits isDigits fun byte first =>
      (marks byte first).1
    have isPower : (letter = 0x65 || letter = 0x45) = true := by simpa using power
    rw [List.cons_append, List.append_assoc, afterExponent?, isPower, if_pos rfl,
      afterSign_append signed isDigits]
    simp only [passed.1, passed.2, Bool.false_eq_true, if_false]

theorem afterFraction?_append {fraction rest : Bytes} (h : IsFraction fraction)
    (stop : ∀ byte ∈ rest.head?, isDigit byte = false ∧ byte ≠ 0x2E) :
    afterFraction? (fraction ++ rest) = some rest := by
  cases h with
  | absent =>
    cases rest with
    | nil => rfl
    | cons byte rest =>
      obtain ⟨_, point⟩ := stop byte rfl
      simp [afterFraction?, point]
  | present isDigits =>
    have passed := takeWhile_and_dropWhile_of_isDigits isDigits fun byte first =>
      (stop byte first).1
    rw [List.cons_append, afterFraction?]
    simp only [passed.1, passed.2, Bool.false_eq_true, if_false]

/-- What a fraction or an exponent starts with is no digit. -/
theorem head_of_isExponent {exponent rest : Bytes} (h : IsExponent exponent) (ends : Ends rest) :
    ∀ byte ∈ (exponent ++ rest).head?, isDigit byte = false ∧ byte ≠ 0x2E := by
  cases h with
  | absent =>
    intro byte first
    obtain ⟨digit, point, _⟩ := marks_of_ends ends byte first
    exact ⟨digit, point⟩
  | present power =>
    rintro _ ⟨⟩
    rcases power with rfl | rfl <;> decide

theorem head_of_isFraction {fraction rest : Bytes} (h : IsFraction fraction)
    (stop : ∀ byte ∈ rest.head?, isDigit byte = false) :
    ∀ byte ∈ (fraction ++ rest).head?, isDigit byte = false := by
  cases h with
  | absent => exact stop
  | present =>
    rintro _ ⟨⟩
    rfl

/-- A number without a sign is scanned to its end, and counts as a natural number if neither a
fraction nor an exponent follows its digits. -/
theorem scanUnsigned_parts (n : Nat) {fraction exponent rest : Bytes}
    (isFraction : IsFraction fraction) (isExponent : IsExponent exponent) (ends : Ends rest) :
    scanUnsigned (digitBytes n ++ (fraction ++ (exponent ++ rest)))
      = some (if fraction ++ exponent = [] then some n else none, rest) := by
  have afterPoint := head_of_isExponent isExponent ends
  have whole := scanWhole_digitBytes n
    (head_of_isFraction isFraction fun byte first => (afterPoint byte first).1)
  have same : rest.length = (fraction ++ (exponent ++ rest)).length
      ↔ fraction ++ exponent = [] := by
    rw [← List.append_assoc, List.length_append, ← List.length_eq_zero_iff]
    omega
  simp only [scanUnsigned, whole, afterFraction?_append isFraction afterPoint,
    afterExponent?_append isExponent ends, ofDigits_digitBytes, same]

theorem digitBytes_ne_nil (n : Nat) : digitBytes n ≠ [] := by
  simp [digitBytes, Decimal.digits_ne_nil]

/-- A number starts with a digit or a sign, and is scanned to its end. -/
theorem scanNumber_of_denotes {bytes : Bytes} {natural : Option Nat}
    (number : DenotesNumber bytes natural) {rest : Bytes} (ends : Ends rest) :
    ∃ first others, bytes = first :: others ∧ (isDigit first = true ∨ first = 0x2D)
      ∧ scanNumber (first :: (others ++ rest)) = some (natural, rest) := by
  have unsigned (n : Nat) {tail : Bytes} {natural : Option Nat}
      (scan : scanUnsigned (digitBytes n ++ (tail ++ rest)) = some (natural, rest)) :
      ∃ first others, digitBytes n ++ tail = first :: others
        ∧ (isDigit first = true ∨ first = 0x2D)
        ∧ scanNumber (first :: (others ++ rest)) = some (natural, rest) := by
    cases digits : digitBytes n with
    | nil => exact absurd digits (digitBytes_ne_nil n)
    | cons first others =>
      have digit : isDigit first = true := isDigit_of_mem_digitBytes (by rw [digits]; simp)
      refine ⟨first, others ++ tail, rfl, .inl digit, ?_⟩
      rw [digits] at scan
      rw [scanNumber_of_digit digit, List.append_assoc]
      exact scan
  cases number with
  | natural n =>
    have scan := scanUnsigned_parts n .absent .absent ends
    have found := unsigned n scan
    rwa [List.append_nil] at found
  | @decimal n fraction exponent isFraction isExponent some =>
    have scan := scanUnsigned_parts n isFraction isExponent ends
    rw [if_neg some, ← List.append_assoc fraction] at scan
    exact unsigned n scan
  | @negative n fraction exponent isFraction isExponent =>
    have scan := scanUnsigned_parts n isFraction isExponent ends
    refine ⟨0x2D, _, rfl, .inr rfl, ?_⟩
    rw [List.append_assoc, List.append_assoc, scanNumber, scan]
    rfl

/-! ## Reading values -/

theorem isBlank_nil : IsBlank [] := fun _ mem => absurd mem List.not_mem_nil

/-- A number starts with none of the marks of the other values. -/
theorem ne_of_start {first : UInt8} (start : isDigit first = true ∨ first = 0x2D) {byte : UInt8}
    (other : byte.toNat < 0x2D ∨ 0x39 < byte.toNat) : first ≠ byte := by
  rcases start with digit | rfl
  · exact ne_of_isDigit digit (by omega)
  · rintro rfl
    revert other
    decide

theorem isSpace_of_start {first : UInt8} (start : isDigit first = true ∨ first = 0x2D) :
    isSpace first = false := by
  refine Bool.eq_false_iff.2 fun space => ?_
  rcases isSpace_iff.1 space with same | same | same | same
  · exact ne_of_start start (by decide) same
  · exact ne_of_start start (by decide) same
  · exact ne_of_start start (by decide) same
  · exact ne_of_start start (by decide) same

/-- A value starts with a byte that is neither a space nor the end of an array. -/
theorem head_of_denotes {bytes : Bytes} {value : Value} (h : Denotes bytes value) :
    ∃ first others, bytes = first :: others ∧ isSpace first = false ∧ first ≠ 0x5D := by
  cases h with
  | number number =>
    obtain ⟨first, others, rfl, start, _⟩ := scanNumber_of_denotes number ends_nil
    exact ⟨first, others, rfl, isSpace_of_start start, ne_of_start start (by decide)⟩
  | null => exact ⟨_, _, rfl, by decide⟩
  | true => exact ⟨_, _, rfl, by decide⟩
  | false => exact ⟨_, _, rfl, by decide⟩
  | string => exact ⟨_, _, rfl, by decide⟩
  | array => exact ⟨_, _, rfl, by decide⟩
  | object => exact ⟨_, _, rfl, by decide⟩

/-- What follows spaces is a mark, so a value may end before them. -/
theorem ends_of_blank {space : Bytes} (blank : IsBlank space) {mark : UInt8}
    (follows : Follows mark) (rest : Bytes) : Ends (space ++ mark :: rest) := by
  intro byte first
  cases space with
  | nil =>
    cases first
    exact .inr follows
  | cons other space =>
    cases first
    exact .inl (isSpace_of_mem_blank blank (by simp))

theorem ends_of_denotesMoreItems {bytes : Bytes} {items : Items} (h : DenotesMoreItems bytes items)
    (rest : Bytes) : Ends (bytes ++ rest) := by
  cases h with
  | closed blank =>
    rw [List.append_assoc]
    exact ends_of_blank blank (.inr (.inl rfl)) rest
  | cons blank =>
    rw [List.append_assoc]
    exact ends_of_blank blank (.inl rfl) _

theorem ends_of_denotesMoreMembers {bytes : Bytes} {members : Members}
    (h : DenotesMoreMembers bytes members) (rest : Bytes) : Ends (bytes ++ rest) := by
  cases h with
  | closed blank =>
    rw [List.append_assoc]
    exact ends_of_blank blank (.inr (.inr rfl)) rest
  | member blank =>
    rw [List.append_assoc]
    exact ends_of_blank blank (.inl rfl) _

theorem length_pos_of_denotesMoreItems {bytes : Bytes} {items : Items}
    (h : DenotesMoreItems bytes items) : 0 < bytes.length := by
  refine List.length_pos_iff.2 ?_
  cases h <;> simp

theorem length_pos_of_denotesMoreMembers {bytes : Bytes} {members : Members}
    (h : DenotesMoreMembers bytes members) : 0 < bytes.length := by
  refine List.length_pos_iff.2 ?_
  cases h <;> simp

/-- A member starts with the quote of its key. -/
theorem skipSpace_of_denotesMember {bytes : Bytes} {members : Members}
    (h : DenotesMember bytes members) (rest : Bytes) :
    ∃ others, skipSpace (bytes ++ rest) = 0x22 :: others := by
  cases h with
  | cons pieces blank =>
    rw [List.append_assoc, List.cons_append]
    exact ⟨_, skipSpace_blank blank rfl _⟩

theorem readValue_string {space : Bytes} (blank : IsBlank space) (pieces : List Piece) (fuel : Nat)
    (rest : Bytes) :
    readValue (fuel + 1) (space ++ 0x22 :: (pieces.flatMap Piece.bytes ++ 0x22 :: rest))
      = (.string (textOf? pieces), rest) := by
  rw [readValue, skipSpace_blank blank rfl]
  simp only [scanString_pieces, textOfParts?_pieces, if_true]

/-- A value that starts with none of the marks of the others is a word or a number. -/
theorem readValue_scalar {space : Bytes} (blank : IsBlank space) {first : UInt8}
    (other : isSpace first = false) (quote : first ≠ 0x22) (bracket : first ≠ 0x5B)
    (brace : first ≠ 0x7B) (fuel : Nat) (rest : Bytes) :
    readValue (fuel + 1) (space ++ first :: rest) = readScalar (first :: rest) := by
  rw [readValue, skipSpace_blank blank other]
  simp only [quote, bracket, brace, if_false]

theorem readValue_number {bytes : Bytes} {natural : Option Nat}
    (number : DenotesNumber bytes natural) {space : Bytes} (blank : IsBlank space) (fuel : Nat)
    {rest : Bytes} (ends : Ends rest) :
    readValue (fuel + 1) (space ++ (bytes ++ rest)) = (.number natural, rest) := by
  obtain ⟨first, others, rfl, start, scan⟩ := scanNumber_of_denotes number ends
  have ne (byte : UInt8) (other : byte.toNat < 0x2D ∨ 0x39 < byte.toNat) : first ≠ byte :=
    ne_of_start start other
  rw [List.cons_append, readValue_scalar blank (isSpace_of_start start) (ne 0x22 (by decide))
    (ne 0x5B (by decide)) (ne 0x7B (by decide))]
  simp [readScalar, afterWord?, scan, Ne.symm (ne 0x6E (by decide)),
    Ne.symm (ne 0x74 (by decide)), Ne.symm (ne 0x66 (by decide))]

theorem skipSpace_skipSpace (bytes : Bytes) : skipSpace (skipSpace bytes) = skipSpace bytes := by
  induction bytes with
  | nil => rfl
  | cons byte bytes ih =>
    cases space : isSpace byte with
    | true =>
      have passed : skipSpace (byte :: bytes) = skipSpace bytes := by
        rw [skipSpace, List.dropWhile_cons_of_pos space, skipSpace]
      rw [passed, ih]
    | false => rw [skipSpace_cons space, skipSpace_cons space]

/-- The spaces before a member are passed over. -/
theorem readMember_skipSpace (fuel : Nat) (bytes : Bytes) :
    readMember fuel (skipSpace bytes) = readMember fuel bytes := by
  cases fuel with
  | zero => rw [readMember, readMember]
  | succ fuel => rw [readMember, readMember, skipSpace_skipSpace]

mutual

/-- A value is read after the spaces before it, and what follows it is left.  Of two calls in a row
one takes a byte. -/
theorem readValue_of_denotes {bytes : Bytes} {value : Value} :
    Denotes bytes value → ∀ {space : Bytes}, IsBlank space → ∀ {fuel : Nat},
      2 * bytes.length ≤ fuel + 1 → ∀ {rest : Bytes}, Ends rest →
        readValue (fuel + 1) (space ++ (bytes ++ rest)) = (value, rest)
  | .null, space, blank, fuel, _, rest, _ => by
    rw [List.cons_append, readValue_scalar blank rfl (by decide) (by decide) (by decide)]
    rfl
  | .true, space, blank, fuel, _, rest, _ => by
    rw [List.cons_append, readValue_scalar blank rfl (by decide) (by decide) (by decide)]
    rfl
  | .false, space, blank, fuel, _, rest, _ => by
    rw [List.cons_append, readValue_scalar blank rfl (by decide) (by decide) (by decide)]
    rfl
  | .number number, space, blank, fuel, _, rest, ends => readValue_number number blank fuel ends
  | .string pieces, space, blank, fuel, _, rest, _ => by
    rw [List.cons_append, List.append_assoc]
    exact readValue_string blank pieces fuel rest
  | .array items, space, blank, fuel, enough, rest, _ => by
    rw [List.length_cons] at enough
    have read := readItems_of_denotes items (show 2 * _ ≤ fuel by omega) rest
    rw [List.cons_append, readValue, skipSpace_blank blank rfl]
    simp only [read]
    rfl
  | .object members, space, blank, fuel, enough, rest, _ => by
    rw [List.length_cons] at enough
    have read := readMembers_of_denotes members (show 2 * _ < fuel by omega) rest
    rw [List.cons_append, readValue, skipSpace_blank blank rfl]
    simp only [read]
    rfl

theorem readItems_of_denotes {bytes : Bytes} {items : Items} :
    DenotesItems bytes items → ∀ {fuel : Nat}, 2 * bytes.length ≤ fuel → ∀ rest : Bytes,
      readItems fuel (bytes ++ rest) = (items, rest)
  | .closed blank, fuel, enough, rest => by
    rw [List.length_append, List.length_singleton] at enough
    obtain ⟨fuel, rfl⟩ : ∃ f, fuel = f + 1 := ⟨fuel - 1, by omega⟩
    rw [List.append_assoc, List.singleton_append, readItems, skipSpace_blank blank rfl]
    rfl
  | @DenotesItems.cons space head tail value items blank first others, fuel, enough, rest => by
    have ends := ends_of_denotesMoreItems others rest
    have some := length_pos_of_denotesMoreItems others
    obtain ⟨byte, bytes, rfl, notSpace, notEnd⟩ := head_of_denotes first
    simp only [List.length_append, List.length_cons] at enough
    obtain ⟨fuel, rfl⟩ : ∃ f, fuel = f + 2 := ⟨fuel - 2, by omega⟩
    have short : 2 * (byte :: bytes).length ≤ fuel + 1 := by
      rw [List.length_cons]
      omega
    have readHead := readValue_of_denotes first isBlank_nil short ends
    have readTail := readMoreItems_of_denotes others (show 2 * _ ≤ fuel + 1 by omega) rest
    rw [List.nil_append, List.cons_append] at readHead
    rw [List.append_assoc, List.append_assoc, List.cons_append, readItems,
      skipSpace_blank blank notSpace]
    simp only [notEnd, if_false, readHead, readTail]

theorem readMoreItems_of_denotes {bytes : Bytes} {items : Items} :
    DenotesMoreItems bytes items → ∀ {fuel : Nat}, 2 * bytes.length ≤ fuel → ∀ rest : Bytes,
      readMoreItems fuel (bytes ++ rest) = (items, rest)
  | .closed blank, fuel, enough, rest => by
    rw [List.length_append, List.length_singleton] at enough
    obtain ⟨fuel, rfl⟩ : ∃ f, fuel = f + 1 := ⟨fuel - 1, by omega⟩
    rw [List.append_assoc, List.singleton_append, readMoreItems, skipSpace_blank blank rfl]
    rfl
  | @DenotesMoreItems.cons after space head tail value items blankAfter blank first others, fuel,
      enough, rest => by
    have ends := ends_of_denotesMoreItems others rest
    have some := length_pos_of_denotesMoreItems others
    simp only [List.length_append, List.length_cons] at enough
    obtain ⟨fuel, rfl⟩ : ∃ f, fuel = f + 2 := ⟨fuel - 2, by omega⟩
    have readHead := readValue_of_denotes first blank (show 2 * _ ≤ fuel + 1 by omega) ends
    have readTail := readMoreItems_of_denotes others (show 2 * _ ≤ fuel + 1 by omega) rest
    rw [List.append_assoc, List.cons_append, List.append_assoc, List.append_assoc, readMoreItems,
      skipSpace_blank blankAfter rfl]
    simp only [readHead, readTail]
    rfl

theorem readMembers_of_denotes {bytes : Bytes} {members : Members} :
    DenotesMembers bytes members → ∀ {fuel : Nat}, 2 * bytes.length < fuel → ∀ rest : Bytes,
      readMembers fuel (bytes ++ rest) = (members, rest)
  | .closed blank, fuel, enough, rest => by
    obtain ⟨fuel, rfl⟩ : ∃ f, fuel = f + 1 := ⟨fuel - 1, by omega⟩
    rw [List.append_assoc, List.singleton_append, readMembers, skipSpace_blank blank rfl]
    rfl
  | .member member, fuel, enough, rest => by
    obtain ⟨fuel, rfl⟩ : ∃ f, fuel = f + 1 := ⟨fuel - 1, by omega⟩
    have read := readMember_of_denotes member (show 2 * _ ≤ fuel by omega) rest
    obtain ⟨others, start⟩ := skipSpace_of_denotesMember member rest
    rw [← readMember_skipSpace, start] at read
    rw [readMembers, start]
    exact read

theorem readMember_of_denotes {bytes : Bytes} {members : Members} :
    DenotesMember bytes members → ∀ {fuel : Nat}, 2 * bytes.length ≤ fuel → ∀ rest : Bytes,
      readMember fuel (bytes ++ rest) = (members, rest)
  | @DenotesMember.cons before after space head tail pieces value members blankBefore blankAfter
      blank first others, fuel, enough, rest => by
    have ends := ends_of_denotesMoreMembers others rest
    have some := length_pos_of_denotesMoreMembers others
    simp only [List.length_append, List.length_cons] at enough
    obtain ⟨fuel, rfl⟩ : ∃ f, fuel = f + 2 := ⟨fuel - 2, by omega⟩
    have readHead := readValue_of_denotes first blank (show 2 * _ ≤ fuel + 1 by omega) ends
    have readTail := readMoreMembers_of_denotes others (show 2 * _ ≤ fuel + 1 by omega) rest
    simp only [List.append_assoc, List.cons_append]
    rw [readMember, skipSpace_blank blankBefore rfl]
    simp only [scanString_pieces, skipSpace_blank blankAfter (show isSpace 0x3A = false from rfl),
      readHead, readTail, textOfParts?_pieces, if_true]

theorem readMoreMembers_of_denotes {bytes : Bytes} {members : Members} :
    DenotesMoreMembers bytes members → ∀ {fuel : Nat}, 2 * bytes.length ≤ fuel → ∀ rest : Bytes,
      readMoreMembers fuel (bytes ++ rest) = (members, rest)
  | .closed blank, fuel, enough, rest => by
    rw [List.length_append, List.length_singleton] at enough
    obtain ⟨fuel, rfl⟩ : ∃ f, fuel = f + 1 := ⟨fuel - 1, by omega⟩
    rw [List.append_assoc, List.singleton_append, readMoreMembers, skipSpace_blank blank rfl]
    rfl
  | .member blank member, fuel, enough, rest => by
    simp only [List.length_append, List.length_cons] at enough
    obtain ⟨fuel, rfl⟩ : ∃ f, fuel = f + 1 := ⟨fuel - 1, by omega⟩
    have read := readMember_of_denotes member (show 2 * _ ≤ fuel by omega) rest
    rw [List.append_assoc, List.cons_append, readMoreMembers, skipSpace_blank blank rfl]
    exact read

end

/-! ## Whole documents -/

mutual

/-- What the grammar gives is read to its end. -/
theorem isComplete_of_denotes {bytes : Bytes} {value : Value} :
    Denotes bytes value → value.isComplete = true
  | .null | .true | .false | .number _ | .string _ => rfl
  | .array items => isComplete_of_denotesItems items
  | .object members => isComplete_of_denotesMembers members

theorem isComplete_of_denotesItems {bytes : Bytes} {items : Items} :
    DenotesItems bytes items → items.isComplete = true
  | .closed _ => rfl
  | .cons _ head tail =>
    Bool.and_eq_true_iff.2 ⟨isComplete_of_denotes head, isComplete_of_denotesMoreItems tail⟩

theorem isComplete_of_denotesMoreItems {bytes : Bytes} {items : Items} :
    DenotesMoreItems bytes items → items.isComplete = true
  | .closed _ => rfl
  | .cons _ _ head tail =>
    Bool.and_eq_true_iff.2 ⟨isComplete_of_denotes head, isComplete_of_denotesMoreItems tail⟩

theorem isComplete_of_denotesMembers {bytes : Bytes} {members : Members} :
    DenotesMembers bytes members → members.isComplete = true
  | .closed _ => rfl
  | .member member => isComplete_of_denotesMember member

theorem isComplete_of_denotesMember {bytes : Bytes} {members : Members} :
    DenotesMember bytes members → members.isComplete = true
  | .cons _ _ _ _ head tail =>
    Bool.and_eq_true_iff.2 ⟨isComplete_of_denotes head, isComplete_of_denotesMoreMembers tail⟩

theorem isComplete_of_denotesMoreMembers {bytes : Bytes} {members : Members} :
    DenotesMoreMembers bytes members → members.isComplete = true
  | .closed _ => rfl
  | .member _ member => isComplete_of_denotesMember member

end

/-- A document is read as the value that it denotes, with spaces left over at most. -/
theorem read_of_denotesDocument {bytes : Bytes} {value : Value}
    (h : DenotesDocument bytes value) : ∃ after, read bytes = (value, after) ∧ IsBlank after := by
  obtain @⟨before, bytes, after, _, blankBefore, denotes, blankAfter⟩ := h
  refine ⟨after, readValue_of_denotes denotes blankBefore ?_ ?_, blankAfter⟩
  · simp only [List.length_append]
    omega
  · intro byte first
    exact .inl (isSpace_of_mem_blank blankAfter (List.mem_of_head? first))

/-- A document denotes one value only. -/
theorem DenotesDocument.unique {bytes : Bytes} {left right : Value}
    (first : DenotesDocument bytes left) (second : DenotesDocument bytes right) : left = right := by
  obtain ⟨_, readLeft, _⟩ := read_of_denotesDocument first
  obtain ⟨_, readRight, _⟩ := read_of_denotesDocument second
  exact (Prod.mk.inj (readLeft.symm.trans readRight)).1

/-- What is made of a document is what is made of the value that it denotes. -/
theorem document_of_denotesDocument {α : Type} (interpret : Value → Except Fault α) {bytes : Bytes}
    {value : Value} (h : DenotesDocument bytes value) :
    document interpret bytes = interpret value := by
  obtain ⟨after, read, blank⟩ := read_of_denotesDocument h
  rw [document, read]
  dsimp only
  rw [skipSpace_of_blank blank]
  cases interpret value with
  | ok result => rfl
  | error fault => rfl

/-- The value of a document is read to its end. -/
theorem isComplete_of_denotesDocument {bytes : Bytes} {value : Value}
    (h : DenotesDocument bytes value) : value.isComplete = true := by
  obtain ⟨_, denotes, _⟩ := h
  exact isComplete_of_denotes denotes

end Json

end SealedEnvelope
