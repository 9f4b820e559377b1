import SealedEnvelope.Proofs.Message.Decoding

/-!
# What decoding accepts, and how it refuses (SPEC_FULL §4.2)

Which bytes are decoded at all is said without the decoders: by a length, a bit, a text encoding, a
grammar of lines.  Bytes that are refused for their first one are refused as an unknown type, and
all others as malformed, whichever check inside a body fails.
-/

set_option autoImplicit false

namespace SealedEnvelope

/-! ## Outcomes that fail as malformed -/

namespace Outcome

variable {α β : Type}

/-- An outcome whose error, if it is one, says that encoded data is malformed. -/
def FormatOnly (outcome : Except Error α) : Prop :=
  ∀ error, outcome = .error error → error.kind = .format

theorem FormatOnly.ok (value : α) : FormatOnly (.ok value) := by
  intro error h
  contradiction

theorem FormatOnly.error {error : Error} (h : error.kind = .format) :
    FormatOnly (.error error : Except Error α) := by
  intro other same
  cases same
  exact h

theorem FormatOnly.bind {first : Except Error α} {next : α → Except Error β}
    (h : FormatOnly first) (h' : ∀ value, FormatOnly (next value)) : FormatOnly (first >>= next) := by
  cases first with
  | error error =>
    intro other same
    cases same
    exact h error rfl
  | ok value => exact h' value

theorem FormatOnly.map {outcome : Except Error α} {change : α → β} (h : FormatOnly outcome) :
    FormatOnly (outcome.map change) := by
  cases outcome with
  | error error =>
    intro other same
    cases same
    exact h error rfl
  | ok value => exact .ok (change value)

/-- What becomes of the result of an outcome is without effect on whether there is one. -/
theorem exists_map_eq_ok {ε : Type} {outcome : Except ε α} {change : α → β} :
    (∃ result, outcome.map change = .ok result) ↔ ∃ value, outcome = .ok value := by
  constructor
  · rintro ⟨result, h⟩
    obtain ⟨value, eq, _⟩ := map_eq_ok.1 h
    exact ⟨value, eq⟩
  · rintro ⟨value, rfl⟩
    exact ⟨change value, rfl⟩

end Outcome

open Outcome (FormatOnly)

/-! ## Locations -/

namespace Location

/-- A text that stands for a finite number. -/
def IsNumber (text : List Char) : Prop :=
  ∃ number, Decimal.binary64? text = some number ∧ number.isFinite = true

/-- A text of at most three lines, of which the first is two or three finite numbers with commas
between them. -/
def IsText (text : List Char) : Prop :=
  ∃ numbers others : List (List Char),
    text = Text.join '\n' (Text.join ',' numbers :: others)
      ∧ (numbers.length = 2 ∨ numbers.length = 3) ∧ others.length ≤ 2
      ∧ (∀ number ∈ numbers, IsNumber number ∧ ',' ∉ number ∧ '\n' ∉ number)
      ∧ ∀ line ∈ others, '\n' ∉ line

theorem exists_parseNumber_eq_ok {text : List Char} :
    (∃ number, parseNumber text = .ok number) ↔ IsNumber text := by
  simp only [parseNumber_eq_ok, IsNumber]

theorem exists_parseCoordinates_eq_ok {parts : List (List Char)} :
    (∃ location, parseCoordinates parts = .ok location)
      ↔ (parts.length = 2 ∨ parts.length = 3) ∧ ∀ part ∈ parts, IsNumber part := by
  simp only [← exists_parseNumber_eq_ok]
  constructor
  · rintro ⟨location, h⟩
    rcases parseCoordinates_eq_ok.1 h with ⟨a, b, x, y, rfl, latitude, longitude, _⟩
      | ⟨a, b, c, x, y, z, rfl, latitude, longitude, accuracy, _⟩
    · refine ⟨.inl rfl, ?_⟩
      intro part mem
      simp only [List.mem_cons, List.not_mem_nil, or_false] at mem
      rcases mem with rfl | rfl
      · exact ⟨x, latitude⟩
      · exact ⟨y, longitude⟩
    · refine ⟨.inr rfl, ?_⟩
      intro part mem
      simp only [List.mem_cons, List.not_mem_nil, or_false] at mem
      rcases mem with rfl | rfl | rfl
      · exact ⟨x, latitude⟩
      · exact ⟨y, longitude⟩
      · exact ⟨z, accuracy⟩
  · rintro ⟨count, numbers⟩
    match parts, count with
    | [a, b], _ =>
      obtain ⟨x, latitude⟩ := numbers a (by simp)
      obtain ⟨y, longitude⟩ := numbers b (by simp)
      exact ⟨_, parseCoordinates_eq_ok.2 (.inl ⟨a, b, x, y, rfl, latitude, longitude, rfl⟩)⟩
    | [a, b, c], _ =>
      obtain ⟨x, latitude⟩ := numbers a (by simp)
      obtain ⟨y, longitude⟩ := numbers b (by simp)
      obtain ⟨z, accuracy⟩ := numbers c (by simp)
      exact ⟨_, parseCoordinates_eq_ok.2
        (.inr ⟨a, b, c, x, y, z, rfl, latitude, longitude, accuracy, rfl⟩)⟩

theorem exists_withLines_eq_ok {location : Location} {lines : List (List Char)} :
    (∃ result, location.withLines lines = .ok result) ↔ lines.length ≤ 2 := by
  constructor
  · rintro ⟨result, h⟩
    rcases withLines_eq_ok.1 h with ⟨rfl, _⟩ | ⟨address, rfl, _⟩ | ⟨name, address, rfl, _⟩
    · exact Nat.zero_le 2
    · exact Nat.le_succ 1
    · exact Nat.le_refl 2
  · intro le
    match lines, le with
    | [], _ => exact ⟨_, rfl⟩
    | [address], _ => exact ⟨_, rfl⟩
    | [name, address], _ => exact ⟨_, rfl⟩

/-- A body is a location exactly if it is the text of one. -/
theorem exists_decode_eq_ok {body : Bytes} :
    (∃ location, decode body = .ok location)
      ↔ ∃ text, body = Utf8.encodeChars text ∧ IsText text := by
  constructor
  · rintro ⟨location, h⟩
    obtain ⟨text, first, others, bare, rfl, lines, numbers, rest⟩ := decode_eq_ok.1 h
    obtain ⟨count, finite⟩ := exists_parseCoordinates_eq_ok.1 ⟨bare, numbers⟩
    have apart : ∀ line ∈ first :: others, '\n' ∉ line := by
      intro line mem
      rw [← lines] at mem
      exact Text.not_mem_of_mem_split mem
    refine ⟨text, rfl, Text.split ',' first, others, ?_, count,
      exists_withLines_eq_ok.1 ⟨location, rest⟩, ?_, ?_⟩
    · rw [Text.join_split, ← lines, Text.join_split]
    · intro number mem
      refine ⟨finite number mem, Text.not_mem_of_mem_split mem, ?_⟩
      intro inNumber
      apply apart first List.mem_cons_self
      rw [← Text.join_split ',' first]
      exact Text.mem_join_of_mem mem inNumber
    · intro line mem
      exact apart line (List.mem_cons_of_mem first mem)
  · rintro ⟨text, rfl, numbers, others, rfl, count, few, each, apart⟩
    have some : numbers ≠ [] := by
      rintro rfl
      simp at count
    have commas : Text.split ',' (Text.join ',' numbers) = numbers :=
      Text.split_join some fun number mem => (each number mem).2.1
    have firstLine : '\n' ∉ Text.join ',' numbers := by
      intro h
      rcases Text.eq_or_exists_of_mem_join h with comma | ⟨number, mem, inNumber⟩
      · contradiction
      · exact (each number mem).2.2 inNumber
    have lines : Text.split '\n' (Text.join '\n' (Text.join ',' numbers :: others))
        = Text.join ',' numbers :: others := by
      apply Text.split_join (List.cons_ne_nil _ _)
      intro line mem
      rcases List.mem_cons.1 mem with rfl | mem
      · exact firstLine
      · exact apart line mem
    obtain ⟨bare, numbersRead⟩ := exists_parseCoordinates_eq_ok.2
      ⟨count, fun number mem => (each number mem).1⟩
    have added : ∃ location, bare.withLines others = .ok location := exists_withLines_eq_ok.2 few
    obtain ⟨location, rest⟩ := added
    refine ⟨location, decode_eq_ok.2 ⟨_, _, others, bare, rfl, lines, ?_, rest⟩⟩
    rw [commas]
    exact numbersRead

theorem parseNumber_formatOnly (text : List Char) : FormatOnly (parseNumber text) := by
  unfold parseNumber
  split
  · split
    · exact .ok _
    · exact .error rfl
  · exact .error rfl

theorem parseCoordinates_formatOnly (parts : List (List Char)) :
    FormatOnly (parseCoordinates parts) := by
  unfold parseCoordinates
  split
  · apply FormatOnly.bind (parseNumber_formatOnly _)
    intro latitude
    apply FormatOnly.bind (parseNumber_formatOnly _)
    intro longitude
    exact .ok _
  · apply FormatOnly.bind (parseNumber_formatOnly _)
    intro latitude
    apply FormatOnly.bind (parseNumber_formatOnly _)
    intro longitude
    apply FormatOnly.bind (parseNumber_formatOnly _)
    intro accuracy
    exact .ok _
  · exact .error rfl

theorem withLines_formatOnly (location : Location) (lines : List (List Char)) :
    FormatOnly (location.withLines lines) := by
  unfold withLines
  split
  · exact .ok _
  · exact .ok _
  · exact .ok _
  · exact .error rfl

theorem decode_formatOnly (body : Bytes) : FormatOnly (decode body) := by
  unfold decode
  split
  · unfold ofLines
    split
    · exact .error rfl
    · apply FormatOnly.bind (parseCoordinates_formatOnly _)
      intro location
      exact location.withLines_formatOnly _
  · exact .error rfl

end Location

/-! ## Images -/

namespace Image

/-- Four bytes give a size that can be told exactly if the first of them has its highest bit clear. -/
theorem sizeOf_lt_iff {bytes : Bytes} (four : bytes.length = 4) :
    (sizeOf bytes).toNat < 2 ^ 31 ↔ ∃ top, bytes.head? = some top ∧ top < 0x80 := by
  match bytes, four with
  | [a, b, c, d], _ =>
    have := b.toNat_lt
    have := c.toNat_lt
    have := d.toNat_lt
    have small : a < 0x80 ↔ a.toNat < 128 := UInt8.lt_iff_toNat_lt
    simp only [sizeOf, Word.toNat_ofBigEndian, List.head?_cons, Option.some.injEq,
      exists_eq_left', small]
    omega

/-- A body is an image exactly if it has forty-four bytes and the field of its size no sign. -/
theorem exists_decode_eq_ok {body : Bytes} :
    (∃ image, decode body = .ok image)
      ↔ body.length = 44 ∧ ∃ top, body[16]? = some top ∧ top < 0x80 := by
  unfold decode
  by_cases length : body.length = bodySize
  · have four : ((body.drop 16).take 4).length = 4 := by
      rw [List.length_take, List.length_drop, length]
      rfl
    have top : ((body.drop 16).take 4).head? = body[16]? := by
      rw [List.head?_take, if_neg (by decide), List.head?_drop]
    have small := sizeOf_lt_iff four
    rw [top] at small
    rw [dif_pos length, ← small]
    simp only
    constructor
    · rintro ⟨image, h⟩
      split at h
      · contradiction
      · rename_i small
        exact ⟨length, Nat.not_le.1 small⟩
    · rintro ⟨_, small⟩
      rw [if_neg (Nat.not_le.2 small)]
      exact ⟨_, rfl⟩
  · rw [dif_neg length]
    constructor
    · rintro ⟨image, h⟩
      contradiction
    · rintro ⟨same, _⟩
      contradiction

theorem decode_formatOnly (body : Bytes) : FormatOnly (decode body) := by
  unfold decode
  split
  · simp only
    split
    · exact .error rfl
    · exact .ok _
  · exact .error rfl

end Image

/-! ## Receipts -/

namespace Receipt

theorem exists_value_eq_iff {value : UInt8} :
    (∃ type : ReceiptType, value = type.value) ↔ value ≤ 4 := by
  constructor
  · rintro ⟨type, rfl⟩
    cases type <;> decide
  · intro le
    have few : value = 0 ∨ value = 1 ∨ value = 2 ∨ value = 3 ∨ value = 4 := by
      have : value.toNat ≤ 4 := UInt8.le_iff_toNat_le.1 le
      simp only [← UInt8.toNat_inj, UInt8.toNat_ofNat]
      omega
    rcases few with rfl | rfl | rfl | rfl | rfl
    · exact ⟨.undefined, rfl⟩
    · exact ⟨.received, rfl⟩
    · exact ⟨.read, rfl⟩
    · exact ⟨.thumbsUp, rfl⟩
    · exact ⟨.thumbsDown, rfl⟩

/-- A body is a receipt exactly if it is the number of a type and whole identifiers. -/
theorem exists_decode_eq_ok {body : Bytes} :
    (∃ receipt, decode body = .ok receipt)
      ↔ body.length % 8 = 1 ∧ ∃ kind, body.head? = some kind ∧ kind ≤ 4 := by
  simp only [decode_eq_ok]
  constructor
  · rintro ⟨receipt, rfl⟩
    refine ⟨?_, receipt.type.value, rfl, exists_value_eq_iff.1 ⟨_, rfl⟩⟩
    rw [encode, List.length_cons, length_flatMap_toList]
    omega
  · rintro ⟨length, kind, first, le⟩
    obtain ⟨type, rfl⟩ := exists_value_eq_iff.2 le
    cases body with
    | nil => contradiction
    | cons kind ids =>
      cases first
      rw [List.length_cons] at length
      have whole : ids.length % 8 = 0 := by omega
      exact ⟨⟨type, idsOf ids⟩, by rw [encode, flatMap_idsOf whole]⟩

theorem decode_formatOnly (body : Bytes) : FormatOnly (decode body) := by
  unfold decode
  split
  · exact .error rfl
  · split
    · apply FormatOnly.map
      unfold ReceiptType.ofValue
      repeat' split
      case isFalse.isFalse.isFalse.isFalse.isFalse => exact .error rfl
      all_goals exact .ok _
    · exact .error rfl

end Receipt

/-! ## Files -/

theorem Rendering.ofValue_formatOnly (value : Nat) : FormatOnly (Rendering.ofValue value) := by
  unfold Rendering.ofValue
  split
  · exact .ok _
  · exact .ok _
  · exact .ok _
  · exact .error rfl

namespace File

/-- A wrong length inside a record is a fault of the record. -/
theorem parseOctets_formatOnly (role : Role) (subject : Subject) (text : String) :
    FormatOnly (parseOctets role subject text) := by
  intro error h
  obtain ⟨fault, _, rfl⟩ := Outcome.mapError_eq_error.1 h
  cases fault with
  | hex fault => rfl
  | length expected actual => rfl

theorem ofRecord_formatOnly (record : FileRecord) : FormatOnly (ofRecord record) := by
  unfold ofRecord
  split
  · exact .error rfl
  · apply FormatOnly.bind (parseOctets_formatOnly _ _ _)
    intro key
    apply FormatOnly.bind (parseOctets_formatOnly _ _ _)
    intro id
    dsimp only
    split
    · apply FormatOnly.bind (.ok _)
      intro thumbnailId
      apply FormatOnly.bind (Rendering.ofValue_formatOnly _)
      intro rendering
      exact .ok _
    · apply FormatOnly.bind (parseOctets_formatOnly _ _ _).map
      intro thumbnailId
      apply FormatOnly.bind (Rendering.ofValue_formatOnly _)
      intro rendering
      exact .ok _

theorem decode_formatOnly (body : Bytes) : FormatOnly (decode body) := by
  unfold decode
  split
  · exact ofRecord_formatOnly _
  · exact .error rfl

end File

/-! ## Messages -/

namespace MessageType

theorem ofTag_eq_error {tag : UInt8} {error : Error} :
    ofTag tag = .error error
      ↔ tag ∉ ([0x01, 0x02, 0x10, 0x17, 0x80] : Bytes) ∧ .unknownTag tag = error := by
  unfold ofTag
  repeat' split
  all_goals simp_all

end MessageType

namespace Message

/-- Nothing in a body of a known type is refused but as malformed. -/
theorem decodeBody_formatOnly (type : MessageType) (body : Bytes) :
    FormatOnly (decodeBody type body) := by
  cases type with
  | text =>
    unfold decodeBody
    dsimp only
    split
    · exact .ok _
    · exact .error rfl
  | image => exact (Image.decode_formatOnly body).map
  | location => exact (Location.decode_formatOnly body).map
  | file => exact (File.decode_formatOnly body).map
  | receipt => exact (Receipt.decode_formatOnly body).map

/-- Bytes are refused for the first of them, or as malformed. -/
theorem unknown_or_format_of_decode {bytes : Bytes} {error : Error}
    (h : decode bytes = .error error) :
    (∃ tag body, bytes = tag :: body ∧ tag ∉ ([0x01, 0x02, 0x10, 0x17, 0x80] : Bytes)
        ∧ .unknownTag tag = error)
      ∨ error.kind = .format := by
  cases bytes with
  | nil =>
    cases h
    exact .inr rfl
  | cons tag body =>
    rw [decode] at h
    cases known : MessageType.ofTag tag with
    | error fault =>
      rw [known] at h
      cases h
      obtain ⟨unknown, same⟩ := MessageType.ofTag_eq_error.1 known
      exact .inl ⟨tag, body, rfl, unknown, same⟩
    | ok type =>
      rw [known] at h
      exact .inr (decodeBody_formatOnly type body error h)

theorem decode_eq_unknownTag_iff {bytes : Bytes} {tag : UInt8} :
    decode bytes = .error (.unknownTag tag)
      ↔ ∃ body, bytes = tag :: body ∧ tag ∉ ([0x01, 0x02, 0x10, 0x17, 0x80] : Bytes) := by
  constructor
  · intro h
    rcases unknown_or_format_of_decode h with ⟨other, body, rfl, unknown, same⟩ | format
    · cases same
      exact ⟨body, rfl, unknown⟩
    · contradiction
  · rintro ⟨body, rfl, unknown⟩
    rw [decode, MessageType.ofTag_eq_error.2 ⟨unknown, rfl⟩]
    rfl

theorem exists_decode_text_eq_ok {body : Bytes} :
    (∃ message, decode (0x01 :: body) = .ok message) ↔ body.toByteArray.IsValidUTF8 := by
  rw [Utf8.isValidUTF8_iff]
  constructor
  · rintro ⟨message, h⟩
    obtain ⟨content, rfl, _⟩ := decodeBody_text_eq_ok.1 h
    exact ⟨content.toList, rfl⟩
  · rintro ⟨chars, rfl⟩
    refine ⟨.text (String.ofList chars), decodeBody_text_eq_ok.2 ⟨_, ?_, rfl⟩⟩
    rw [Utf8.encode, String.toList_ofList]

/-- Bytes are refused as an unknown type exactly if they start with a byte that tells none, and
otherwise as malformed only.  After the tag of its type a text is all of UTF-8, an image forty-four
bytes with the sign of its size clear, a receipt the number of a type before whole identifiers, and
a location a text of at most three lines that starts with two or three finite numbers. -/
theorem decode_acceptance :
    (∀ bytes tag, decode bytes = .error (.unknownTag tag)
      ↔ ∃ body, bytes = tag :: body ∧ tag ∉ ([0x01, 0x02, 0x10, 0x17, 0x80] : Bytes))
    ∧ (∀ bytes error, decode bytes = .error error → (∀ tag, error ≠ .unknownTag tag) →
      error.kind = .format)
    ∧ (∀ body, (∃ message, decode (0x01 :: body) = .ok message)
      ↔ body.toByteArray.IsValidUTF8)
    ∧ (∀ body, (∃ message, decode (0x02 :: body) = .ok message)
      ↔ body.length = 44 ∧ ∃ top, body[16]? = some top ∧ top < 0x80)
    ∧ (∀ body, (∃ message, decode (0x80 :: body) = .ok message)
      ↔ body.length % 8 = 1 ∧ ∃ kind, body.head? = some kind ∧ kind ≤ 4)
    ∧ ∀ body, (∃ message, decode (0x10 :: body) = .ok message)
      ↔ ∃ text, body = Utf8.encodeChars text ∧ Location.IsText text := by
  refine ⟨fun _ _ => decode_eq_unknownTag_iff, ?_, fun _ => exists_decode_text_eq_ok, ?_, ?_, ?_⟩
  · intro bytes error h other
    rcases unknown_or_format_of_decode h with ⟨tag, _, _, _, same⟩ | format
    · exact absurd same.symm (other tag)
    · exact format
  · intro body
    exact Outcome.exists_map_eq_ok.trans Image.exists_decode_eq_ok
  · intro body
    exact Outcome.exists_map_eq_ok.trans Receipt.exists_decode_eq_ok
  · intro body
    exact Outcome.exists_map_eq_ok.trans Location.exists_decode_eq_ok

/-- Of two images that differ in one bit the one whose size has a sign is refused, and refused as
malformed. -/
theorem decode_acceptance_sign :
    let image (top : UInt8) : Bytes := 0x02 :: (Bytes.zeros 16 ++ top :: Bytes.zeros 27)
    (∃ message, decode (image 0x7F) = .ok message)
      ∧ ∃ error, decode (image 0x80) = .error error ∧ error.kind = .format := by
  intro image
  obtain ⟨unknown, format, _, images, _⟩ := decode_acceptance
  refine ⟨(images _).2 ⟨rfl, 0x7F, rfl, by decide⟩, ?_⟩
  cases h : decode (image 0x80) with
  | ok message =>
    obtain ⟨_, top, first, small⟩ := (images _).1 ⟨message, h⟩
    cases first
    contradiction
  | error error =>
    refine ⟨error, rfl, format (image 0x80) error h ?_⟩
    rintro tag rfl
    obtain ⟨body, same, new⟩ := (unknown _ _).1 h
    cases same
    exact absurd new (by decide)

end Message

end SealedEnvelope
