import SealedEnvelope.Proofs.Message.RoundTrip

/-!
# What decoding yields (SPEC_FULL §4.2)

A decoder fills in the fields of a message without the functions that make messages, so that what
those functions check has to follow from what the decoder reads.  Every message that comes out of a
decoder could have been made, and its encoding is a normal form: decoding it gives the message
again.  Texts, images and receipts have one encoding only.
-/

set_option autoImplicit false

namespace SealedEnvelope

/-! ## Locations -/

namespace Location

theorem parseNumber_eq_ok {text : List Char} {number : Binary64} :
    parseNumber text = .ok number
      ↔ Decimal.binary64? text = some number ∧ number.isFinite = true := by
  unfold parseNumber
  cases Decimal.binary64? text with
  | none => simp
  | some found =>
    simp only [Option.some.injEq]
    constructor
    · intro h
      split at h
      · rename_i finite
        cases h
        exact ⟨rfl, finite⟩
      · contradiction
    · rintro ⟨rfl, finite⟩
      exact if_pos finite

/-- The first line gives two numbers, or three with the accuracy. -/
theorem parseCoordinates_eq_ok {parts : List (List Char)} {location : Location} :
    parseCoordinates parts = .ok location
      ↔ (∃ a b x y, parts = [a, b] ∧ parseNumber a = .ok x ∧ parseNumber b = .ok y
          ∧ location = ⟨x, y, none, none, none⟩)
        ∨ ∃ a b c x y z, parts = [a, b, c] ∧ parseNumber a = .ok x ∧ parseNumber b = .ok y
          ∧ parseNumber c = .ok z ∧ location = ⟨x, y, some z, none, none⟩ := by
  constructor
  · intro h
    unfold parseCoordinates at h
    split at h
    · simp only [Outcome.bind_eq_ok, Outcome.pure_eq_ok] at h
      obtain ⟨x, latitude, y, longitude, rfl⟩ := h
      exact .inl ⟨_, _, x, y, rfl, latitude, longitude, rfl⟩
    · simp only [Outcome.bind_eq_ok, Outcome.pure_eq_ok] at h
      obtain ⟨x, latitude, y, longitude, z, accuracy, rfl⟩ := h
      exact .inr ⟨_, _, _, x, y, z, rfl, latitude, longitude, accuracy, rfl⟩
    · contradiction
  · rintro (⟨a, b, x, y, rfl, latitude, longitude, rfl⟩
      | ⟨a, b, c, x, y, z, rfl, latitude, longitude, accuracy, rfl⟩)
    · rw [parseCoordinates, latitude, longitude]
      rfl
    · rw [parseCoordinates, latitude, longitude, accuracy]
      rfl

/-- One line after the first is an address, and two are a name and an address. -/
theorem withLines_eq_ok {location result : Location} {lines : List (List Char)} :
    location.withLines lines = .ok result
      ↔ (lines = [] ∧ location = result)
        ∨ (∃ address, lines = [address]
          ∧ { location with address := some (String.ofList address) } = result)
        ∨ ∃ name address, lines = [name, address]
          ∧ { location with
              name := some (String.ofList name), address := some (String.ofList address) }
            = result := by
  constructor
  · intro h
    unfold withLines at h
    split at h
    · exact .inl ⟨rfl, Except.ok.inj h⟩
    · exact .inr (.inl ⟨_, rfl, Except.ok.inj h⟩)
    · exact .inr (.inr ⟨_, _, rfl, Except.ok.inj h⟩)
    · contradiction
  · rintro (⟨rfl, rfl⟩ | ⟨address, rfl, rfl⟩ | ⟨name, address, rfl, rfl⟩)
    · rfl
    · rfl
    · rfl

/-- A body is a location exactly if its first line gives the numbers and the lines after it the
name and the address. -/
theorem decode_eq_ok {body : Bytes} {location : Location} :
    decode body = .ok location
      ↔ ∃ text first others bare, body = Utf8.encodeChars text
          ∧ Text.split '\n' text = first :: others
          ∧ parseCoordinates (Text.split ',' first) = .ok bare
          ∧ bare.withLines others = .ok location := by
  constructor
  · intro h
    unfold decode at h
    split at h
    · rename_i text read
      unfold ofLines at h
      split at h
      · contradiction
      · rename_i first others lines
        obtain ⟨bare, numbers, rest⟩ := Outcome.bind_eq_ok.1 h
        exact ⟨text, first, others, bare, Utf8.decodeChars_eq_ok_iff.1 read, lines, numbers, rest⟩
    · contradiction
  · rintro ⟨text, first, others, bare, rfl, lines, numbers, rest⟩
    unfold decode
    rw [Utf8.decodeChars_encodeChars]
    simp only [lines]
    exact Outcome.bind_eq_ok.2 ⟨bare, numbers, rest⟩

theorem wellFormed_of_parseCoordinates {parts : List (List Char)} {location : Location}
    (h : parseCoordinates parts = .ok location) : location.WellFormed := by
  rcases parseCoordinates_eq_ok.1 h with ⟨a, b, x, y, _, latitude, longitude, rfl⟩
    | ⟨a, b, c, x, y, z, _, latitude, longitude, accuracy, rfl⟩
  · have latitude := (parseNumber_eq_ok.1 latitude).2
    have longitude := (parseNumber_eq_ok.1 longitude).2
    exact ⟨latitude, longitude, nofun, nofun, nofun, nofun⟩
  · have latitude := (parseNumber_eq_ok.1 latitude).2
    have longitude := (parseNumber_eq_ok.1 longitude).2
    have accuracy := (parseNumber_eq_ok.1 accuracy).2
    exact ⟨latitude, longitude, by rintro _ ⟨⟩; exact accuracy, nofun, nofun, nofun⟩

/-- Lines without line breaks are added to a location that an encoding can carry. -/
theorem WellFormed.withLines {location result : Location} (wellFormed : location.WellFormed)
    {lines : List (List Char)} (apart : ∀ line ∈ lines, '\n' ∉ line)
    (h : location.withLines lines = .ok result) : result.WellFormed := by
  have single {line : List Char} (mem : line ∈ lines) : '\n' ∉ (String.ofList line).toList := by
    rw [String.toList_ofList]
    exact apart line mem
  rcases withLines_eq_ok.1 h with ⟨rfl, rfl⟩ | ⟨address, rfl, rfl⟩ | ⟨name, address, rfl, rfl⟩
  · exact wellFormed
  · exact { wellFormed with
      address := by rintro _ ⟨⟩; exact single (by simp)
      addressed := fun _ => rfl }
  · exact { wellFormed with
      name := by rintro _ ⟨⟩; exact single (by simp)
      address := by rintro _ ⟨⟩; exact single (by simp)
      addressed := fun _ => rfl }

theorem wellFormed_of_decode {body : Bytes} {location : Location}
    (h : decode body = .ok location) : location.WellFormed := by
  obtain ⟨text, first, others, bare, _, lines, numbers, rest⟩ := decode_eq_ok.1 h
  have apart : ∀ line ∈ others, '\n' ∉ line := by
    intro line mem
    have inText : line ∈ Text.split '\n' text := by
      rw [lines]
      exact List.mem_cons_of_mem first mem
    exact Text.not_mem_of_mem_split inText
  exact (wellFormed_of_parseCoordinates numbers).withLines apart rest

end Location

/-! ## Images -/

namespace Image

theorem toBigEndian_sizeOf {bytes : Bytes} (four : bytes.length = 4) :
    Word.toBigEndian (sizeOf bytes) = bytes := by
  match bytes, four with
  | [a, b, c, d], _ => exact Word.toBigEndian_ofBigEndian a b c d

/-- A body is an image exactly if it is the encoding of one whose size can be told. -/
theorem decode_eq_ok {body : Bytes} {image : Image} :
    decode body = .ok image ↔ body = image.encode ∧ image.size.toNat ≤ maxBlobSize := by
  constructor
  · intro h
    unfold decode at h
    split at h
    · rename_i length
      simp only at h
      split at h
      · contradiction
      · rename_i small
        cases h
        refine ⟨?_, by simp only [maxBlobSize]; omega⟩
        have four : ((body.drop 16).take 4).length = 4 := by
          rw [List.length_take, List.length_drop, length]
          rfl
        calc body = body.take 16 ++ body.drop 16 := (List.take_append_drop 16 body).symm
          _ = body.take 16 ++ ((body.drop 16).take 4 ++ (body.drop 16).drop 4) :=
            congrArg (body.take 16 ++ ·) (List.take_append_drop 4 (body.drop 16)).symm
          _ = body.take 16 ++ (body.drop 16).take 4 ++ body.drop 20 := by
            rw [List.drop_drop, List.append_assoc]
          _ = _ := by rw [encode, toBigEndian_sizeOf four]
    · contradiction
  · rintro ⟨rfl, size⟩
    exact decode_encode size

end Image

/-! ## Receipts -/

namespace ReceiptType

theorem ofValue_eq_ok {value : UInt8} {type : ReceiptType} :
    ofValue value = .ok type ↔ value = type.value := by
  constructor
  · intro h
    unfold ofValue at h
    repeat' split at h
    case isFalse.isFalse.isFalse.isFalse.isFalse => contradiction
    all_goals
      cases h
      assumption
  · rintro rfl
    exact ofValue_value type

end ReceiptType

namespace Receipt

/-- Whole groups of eight bytes are the bytes of their identifiers. -/
theorem flatMap_idsOf {bytes : Bytes} (whole : bytes.length % 8 = 0) :
    (idsOf bytes).flatMap Octets.toList = bytes := by
  fun_induction idsOf bytes with
  | case1 a b c d e f g h rest ih =>
    have rest := ih (by simp only [List.length_cons] at whole; omega)
    rw [List.flatMap_cons, rest]
    rfl
  | case2 short few =>
    match short, whole with
    | [], _ => rfl
    | a :: b :: c :: d :: e :: f :: g :: h :: rest, _ => exact (few a b c d e f g h rest rfl).elim

/-- A body is a receipt exactly if it is the encoding of one. -/
theorem decode_eq_ok {body : Bytes} {receipt : Receipt} :
    decode body = .ok receipt ↔ body = receipt.encode := by
  constructor
  · intro h
    unfold decode at h
    split at h
    · contradiction
    · rename_i kind ids
      split at h
      · rename_i whole
        obtain ⟨type, known, rfl⟩ := Outcome.map_eq_ok.1 h
        rw [encode, flatMap_idsOf whole, ReceiptType.ofValue_eq_ok.1 known]
      · contradiction
  · rintro rfl
    exact decode_encode receipt

end Receipt

/-! ## Files -/

namespace File

/-- The blob of a file is made from the key that the record holds, and its size can be told. -/
theorem stored_of_ofRecord {record : FileRecord} {file : File} (h : ofRecord record = .ok file) :
    file.stored.blob = Blob.file file.stored.blob.key
      ∧ file.stored.size.toNat ≤ maxBlobSize := by
  unfold ofRecord at h
  split at h
  · contradiction
  · rename_i small
    obtain ⟨key, _, h⟩ := Outcome.bind_eq_ok.1 h
    obtain ⟨id, _, h⟩ := Outcome.bind_eq_ok.1 h
    have told : record.size ≤ maxBlobSize := Nat.not_lt.1 small
    have word : record.size < UInt32.size := Nat.lt_of_le_of_lt told (by decide)
    have size : (UInt32.ofNat record.size).toNat ≤ maxBlobSize := by
      rw [UInt32.toNat_ofNat_of_lt' word]
      exact told
    -- the blob is the same whether or not the record names a thumbnail
    dsimp only at h
    split at h
    all_goals
      obtain ⟨thumbnailId, _, h⟩ := Outcome.bind_eq_ok.1 h
      obtain ⟨rendering, _, h⟩ := Outcome.bind_eq_ok.1 h
      cases h
      exact ⟨rfl, size⟩

theorem stored_of_decode {body : Bytes} {file : File} (h : decode body = .ok file) :
    file.stored.blob = Blob.file file.stored.blob.key
      ∧ file.stored.size.toNat ≤ maxBlobSize := by
  unfold decode at h
  split at h
  · exact stored_of_ofRecord h
  · contradiction

end File

/-! ## Messages -/

namespace MessageType

theorem ofTag_eq_ok {tag : UInt8} {type : MessageType} : ofTag tag = .ok type ↔ tag = type.tag := by
  constructor
  · intro h
    unfold ofTag at h
    repeat' split at h
    case isFalse.isFalse.isFalse.isFalse.isFalse => contradiction
    all_goals
      cases h
      assumption
  · rintro rfl
    cases type <;> rfl

end MessageType

namespace Message

/-- The messages that an encoding carries whole: numbers that are finite, names and addresses of one
line, sizes that can be told, and a file whose blob was made as a file. -/
def WellFormed : Message → Prop
  | .text _ => True
  | .location content => content.WellFormed
  | .image content => content.size.toNat ≤ maxBlobSize
  | .file content =>
    content.stored.blob = Blob.file content.stored.blob.key
      ∧ content.stored.size.toNat ≤ maxBlobSize
  | .receipt _ => True

theorem WellFormed.built {message : Message} (wellFormed : message.WellFormed) :
    message.Built := by
  cases message with
  | text content => exact .text content
  | location content => exact .location (Location.built_iff.2 wellFormed)
  | image content => exact .image (Image.built_iff.2 wellFormed)
  | file content =>
    obtain ⟨file, size⟩ := wellFormed
    have blob : content.stored.blob.Built := by
      rw [file]
      exact .file _
    exact .file (File.built_iff.2 (StoredBlob.built_iff.2 ⟨blob, size⟩))
  | receipt content => exact .receipt content

/-- A message that its encoding carries whole is read back from it. -/
theorem WellFormed.decode_encode {message : Message} (wellFormed : message.WellFormed) :
    decode message.encode = .ok message := by
  have same : message.received = message := by
    apply (received_eq_self_iff wellFormed.built).2
    rintro content rfl
    rw [wellFormed.1]
    rfl
  have read := decode_encode_received wellFormed.built
  rwa [same] at read

/-- A decoded message is what its body holds, read as the type that its tag tells. -/
theorem decode_eq_ok {bytes : Bytes} {message : Message} :
    decode bytes = .ok message
      ↔ ∃ type body, bytes = MessageType.tag type :: body ∧ decodeBody type body = .ok message := by
  constructor
  · intro h
    cases bytes with
    | nil => contradiction
    | cons tag body =>
      obtain ⟨type, known, h⟩ := Outcome.bind_eq_ok.1 h
      exact ⟨type, body, by rw [MessageType.ofTag_eq_ok.1 known], h⟩
  · rintro ⟨type, body, rfl, h⟩
    rw [decode, ofTag_tag]
    exact h

theorem decode_location {body : Bytes} {content : Location}
    (h : Location.decode body = .ok content) :
    decode (MessageType.location.tag :: body) = .ok (.location content) :=
  decode_eq_ok.2 ⟨.location, body, rfl, congrArg (Except.map Message.location) h⟩

theorem decodeBody_text_eq_ok {body : Bytes} {message : Message} :
    decodeBody .text body = .ok message
      ↔ ∃ content, body = Utf8.encode content ∧ .text content = message := by
  simp only [← Utf8.decode_eq_ok_iff, decodeBody]
  cases Utf8.decode body with
  | error fault => simp
  | ok content => simp

theorem type_of_decodeBody {type : MessageType} {body : Bytes} {message : Message}
    (h : decodeBody type body = .ok message) : message.type = type := by
  cases type with
  | text =>
    obtain ⟨content, _, rfl⟩ := decodeBody_text_eq_ok.1 h
    rfl
  | image | location | file | receipt =>
    obtain ⟨content, _, rfl⟩ := Outcome.map_eq_ok.1 h
    rfl

theorem wellFormed_of_decodeBody {type : MessageType} {body : Bytes} {message : Message}
    (h : decodeBody type body = .ok message) : message.WellFormed := by
  cases type with
  | text =>
    obtain ⟨content, _, rfl⟩ := decodeBody_text_eq_ok.1 h
    exact trivial
  | image =>
    obtain ⟨content, read, rfl⟩ := Outcome.map_eq_ok.1 h
    exact (Image.decode_eq_ok.1 read).2
  | location =>
    obtain ⟨content, read, rfl⟩ := Outcome.map_eq_ok.1 h
    exact Location.wellFormed_of_decode read
  | file =>
    obtain ⟨content, read, rfl⟩ := Outcome.map_eq_ok.1 h
    exact File.stored_of_decode read
  | receipt =>
    obtain ⟨content, _, rfl⟩ := Outcome.map_eq_ok.1 h
    exact trivial

/-- What is decoded could have been made without it. -/
theorem built_of_decode {bytes : Bytes} {message : Message} (h : decode bytes = .ok message) :
    message.Built := by
  obtain ⟨type, body, _, held⟩ := decode_eq_ok.1 h
  exact (wellFormed_of_decodeBody held).built

/-- Texts, images and receipts are decoded from their own encoding only. -/
theorem body_of_decodeBody {type : MessageType} {body : Bytes} {message : Message}
    (h : decodeBody type body = .ok message) (mem : type ∈ [MessageType.text, .image, .receipt]) :
    message.body = body := by
  cases type with
  | text =>
    obtain ⟨content, rfl, rfl⟩ := decodeBody_text_eq_ok.1 h
    rfl
  | image =>
    obtain ⟨content, read, rfl⟩ := Outcome.map_eq_ok.1 h
    exact (Image.decode_eq_ok.1 read).1.symm
  | receipt =>
    obtain ⟨content, read, rfl⟩ := Outcome.map_eq_ok.1 h
    exact (Receipt.decode_eq_ok.1 read).symm
  | location | file => simp at mem

theorem encode_of_decode {bytes : Bytes} {message : Message} (h : decode bytes = .ok message)
    (mem : message.type ∈ [MessageType.text, .image, .receipt]) : message.encode = bytes := by
  obtain ⟨type, body, rfl, held⟩ := decode_eq_ok.1 h
  obtain rfl := type_of_decodeBody held
  rw [encode, body_of_decodeBody held mem]

/-- Whatever bytes a message is decoded from, it could have been made, it has only values that an
encoding carries, and its own encoding is decoded to it again.  If it is a text, an image or a
receipt, the bytes are that encoding, and no others are decoded to it. -/
theorem normal_of_decode {bytes : Bytes} {message : Message} (h : decode bytes = .ok message) :
    message.Built ∧ message.WellFormed
      ∧ decode message.encode = .ok message
      ∧ (message.type ∈ [MessageType.text, .image, .receipt] →
        message.encode = bytes ∧ ∀ other, decode other = .ok message → other = bytes) := by
  have wellFormed : message.WellFormed := by
    obtain ⟨type, body, _, held⟩ := decode_eq_ok.1 h
    exact wellFormed_of_decodeBody held
  refine ⟨wellFormed.built, wellFormed, wellFormed.decode_encode, ?_⟩
  intro mem
  refine ⟨encode_of_decode h mem, ?_⟩
  intro other same
  rw [← encode_of_decode same mem, encode_of_decode h mem]

/-- Numbers with a sign, a power of ten or nothing before the point are read, and written in another
way: the body of this location is not its encoding, which is decoded to it all the same. -/
theorem normal_of_decode_signed :
    let bytes : Bytes := MessageType.location.tag :: Utf8.encodeChars "+1e2,-.5\nHere".toList
    let hundred : Binary64 := ⟨0x4059000000000000⟩
    let half : Binary64 := ⟨0xBFE0000000000000⟩
    let place : Location := ⟨hundred, half, none, none, some "Here"⟩
    decode bytes = .ok (.location place) ∧ (location place).encode ≠ bytes
      ∧ decode (location place).encode = .ok (.location place) := by
  intro bytes hundred half place
  have latitude : Location.parseNumber "+1e2".toList = .ok hundred :=
    Location.parseNumber_eq_ok.2 ⟨by decide +kernel, by decide⟩
  have longitude : Location.parseNumber "-.5".toList = .ok half :=
    Location.parseNumber_eq_ok.2 ⟨by decide +kernel, by decide⟩
  have numbers : Location.parseCoordinates (Text.split ',' "+1e2,-.5".toList)
      = .ok ⟨hundred, half, none, none, none⟩ :=
    Location.parseCoordinates_eq_ok.2
      (.inl ⟨_, _, hundred, half, by decide +kernel, latitude, longitude, rfl⟩)
  have read : Location.decode (Utf8.encodeChars "+1e2,-.5\nHere".toList) = .ok place :=
    Location.decode_eq_ok.2
      ⟨_, "+1e2,-.5".toList, ["Here".toList], _, rfl, by decide +kernel, numbers, rfl⟩
  have decoded : decode bytes = .ok (.location place) := decode_location read
  obtain ⟨_, _, again, _⟩ := normal_of_decode decoded
  exact ⟨decoded, by decide +kernel, again⟩

end Message

end SealedEnvelope
