import SealedEnvelope.Proofs.Json.ReadBack
import SealedEnvelope.Proofs.Message.Construction
import SealedEnvelope.Proofs.Number.ReadBack

/-!
# Messages read back (SPEC_FULL §6, §12)

Every message that can be made is read back from its encoding.  Of the blob of a file only the key
travels, so a file comes back as one whose blob was made as a file.
-/

set_option autoImplicit false

namespace SealedEnvelope

/-! ## Records of files -/

namespace FileRecord

/-- A member that holds a text. -/
def textMember (name text : String) : Json.WrittenMember :=
  ⟨name, Json.writeText text, .string (some text), Json.readsAs_writeText text⟩

/-- A member that holds a natural number. -/
def naturalMember (name : String) (n : Nat) : Json.WrittenMember :=
  ⟨name, Json.writeNatural n, .number (some n), Json.readsAs_writeNatural n⟩

/-- The members of a record, in the order they are written. -/
def members (record : FileRecord) : List Json.WrittenMember :=
  [textMember "b" record.blobId] ++ record.thumbnailId.toList.map (textMember "t")
    ++ [textMember "k" record.key, textMember "m" record.mimeType]
    ++ record.name.toList.map (textMember "n") ++ record.description.toList.map (textMember "d")
    ++ record.correlationId.toList.map (textMember "c")
    ++ [naturalMember "s" record.size, naturalMember "j" record.rendering]

theorem write_eq (record : FileRecord) :
    record.write = Json.writeObject (record.members.map Json.WrittenMember.written) := by
  have optional (name : String) (text : Option String) :
      optionalMember name text
        = (text.toList.map (textMember name)).map Json.WrittenMember.written := by
    rw [List.map_map]
    rfl
  simp only [write, members, List.map_append, ← optional]
  rfl

/-- The names of a record's members are names of its fields, in the same order. -/
theorem names_sublist (record : FileRecord) :
    ((record.members.map Json.WrittenMember.read).map Prod.fst).Sublist
      (fields.map Json.Field.name) := by
  have optional (name : String) (text : Option String) :
      (((text.toList.map (textMember name)).map Json.WrittenMember.read).map Prod.fst).Sublist
        [name] := by
    cases text with
    | none => exact List.nil_sublist _
    | some text => exact List.Sublist.refl _
  simp only [members, List.map_append]
  exact ((((((List.Sublist.refl ["b"]).append (optional "t" _)).append
    (List.Sublist.refl ["k", "m"])).append (optional "n" _)).append (optional "d" _)).append
    (optional "c" _)).append (List.Sublist.refl ["s", "j"])

/-- Each member is admitted by the field of its name, and no name comes twice. -/
theorem admitted {record : FileRecord} (size : record.size < 2 ^ 32)
    (rendering : record.rendering < 256) :
    Json.Record.Admitted fields (record.members.map Json.WrittenMember.read) := by
  refine ⟨?_, (names_sublist record).nodup (by decide)⟩
  intro found foundMem
  obtain ⟨member, mem, rfl⟩ := List.mem_map.1 foundMem
  simp only [members, List.mem_append, List.mem_cons, List.not_mem_nil, or_false, List.mem_map]
    at mem
  rcases mem with (((((rfl | ⟨text, _, rfl⟩) | rfl | rfl) | ⟨text, _, rfl⟩) | ⟨text, _, rfl⟩)
    | ⟨text, _, rfl⟩) | rfl | rfl
  case inr.inl =>
    exact ⟨_, rfl, decide_eq_true (by omega)⟩
  case inr.inr =>
    exact ⟨_, rfl, decide_eq_true (by omega)⟩
  all_goals exact ⟨_, rfl, rfl⟩

theorem value?_optional (key : String) (text : Option String) (name : String) :
    Json.Record.value? ((text.toList.map (textMember key)).map Json.WrittenMember.read) name
      = if name = key then text.map fun text => .string (some text) else none := by
  cases text with
  | none => simp [Json.Record.value?]
  | some text => exact Json.Record.value?_cons key (.string (some text)) [] name

/-- The fields that the members of a record are read as are the fields that were written. -/
theorem ofFields_members {record : FileRecord} {found : Json.Record}
    (h : ∀ name, found.value? name
      = Json.Record.value? (record.members.map Json.WrittenMember.read) name) :
    ofFields found = .ok record := by
  simp only [members, List.map_append, Json.Record.value?_append, value?_optional, List.map_cons,
    List.map_nil, textMember, naturalMember, Json.WrittenMember.read, Json.Record.value?_cons] at h
  have nothing (name : String) : Json.Record.value? [] name = none := rfl
  have b : found.text "b" = .ok record.blobId :=
    Json.Record.text_of_value? (by simp [h])
  have k : found.text "k" = .ok record.key :=
    Json.Record.text_of_value? (by simp [h, nothing])
  have m : found.text "m" = .ok record.mimeType :=
    Json.Record.text_of_value? (by simp [h, nothing])
  have s : found.natural "s" = .ok record.size :=
    Json.Record.natural_of_value? (by simp [h, nothing])
  have j : found.natural? "j" = some record.rendering :=
    Json.Record.natural?_of_value? (by simp [h, nothing])
  have t : found.text? "t" = record.thumbnailId :=
    Json.Record.text?_of_value? (by simp [h, nothing])
  have n : found.text? "n" = record.name :=
    Json.Record.text?_of_value? (by simp [h, nothing])
  have d : found.text? "d" = record.description :=
    Json.Record.text?_of_value? (by simp [h, nothing])
  have c : found.text? "c" = record.correlationId :=
    Json.Record.text?_of_value? (by simp [h, nothing])
  rw [ofFields, b, k, m, s, j, t, n, d, c]
  rfl

/-- A record is read back from its text. -/
theorem read_write {record : FileRecord} (size : record.size < 2 ^ 32)
    (rendering : record.rendering < 256) :
    read (Utf8.encodeChars record.write) = .ok record := by
  obtain ⟨found, eq, agrees⟩ := Json.Record.ofValue_object (admitted size rendering)
  rw [read, write_eq, Json.document_writeObject, ofValue, eq]
  exact ofFields_members agrees

end FileRecord

/-! ## Files -/

namespace File

@[simp] theorem parseOctets_toHex {role : Role} (subject : Subject) (value : Octets role) :
    parseOctets role subject value.toHex = .ok value := by
  rw [parseOctets, Octets.ofHex_toHex]
  rfl

/-- The file as its receiver learns of it: of the blob only the key is known. -/
def received (file : File) : File :=
  { file with stored := { file.stored with blob := Blob.file file.stored.blob.key } }

theorem received_eq_self_iff {file : File} (built : file.stored.blob.Built) :
    file.received = file ↔ file.stored.blob.purpose = .file := by
  constructor
  · intro same
    rw [← same]
    rfl
  · intro purpose
    rw [received, ← built.eq_file purpose]

/-- A record that a file is written as describes what the receiver learns of it. -/
theorem ofRecord_record {file : File} (size : file.stored.size.toNat ≤ maxBlobSize) :
    ofRecord file.record = .ok file.received := by
  have key : parseOctets .symmetricKey .fileKey file.record.key = .ok file.stored.blob.key :=
    parseOctets_toHex _ _
  have id : parseOctets .blobId .blobId file.record.blobId = .ok file.stored.id :=
    parseOctets_toHex _ _
  have rendering : Rendering.ofValue file.record.rendering = .ok file.rendering := by
    cases h : file.rendering <;> simp [record, h, Rendering.value, Rendering.ofValue]
  have told : UInt32.ofNat file.record.size = file.stored.size := UInt32.ofNat_toNat
  have small : ¬ maxBlobSize < file.record.size := Nat.not_lt.2 size
  unfold ofRecord
  rw [if_neg small, key, id, rendering, told]
  cases h : file.thumbnailId with
  | none =>
    have none : file.record.thumbnailId = none := by rw [record, h]; rfl
    rw [none, received, h]
    rfl
  | some thumbnailId =>
    have some : file.record.thumbnailId = some thumbnailId.toHex := by rw [record, h]; rfl
    rw [some, received, h]
    simp only [parseOctets_toHex]
    rfl

/-- The numbers of a record that a file is written as fit their fields. -/
theorem size_record_lt (file : File) : file.record.size < 2 ^ 32 := file.stored.size.toNat_lt

theorem rendering_record_lt (file : File) : file.record.rendering < 256 := by
  cases h : file.rendering <;> simp [record, h, Rendering.value]

/-- What is read from an encoding is what its record describes. -/
theorem decode_encode_eq_ofRecord (file : File) : decode file.encode = ofRecord file.record := by
  rw [decode, encode, FileRecord.read_write file.size_record_lt file.rendering_record_lt]

theorem decode_encode {file : File} (size : file.stored.size.toNat ≤ maxBlobSize) :
    decode file.encode = .ok file.received := by
  rw [decode_encode_eq_ofRecord, ofRecord_record size]

end File

/-! ## Images -/

namespace Image

theorem sizeOf_toBigEndian (size : UInt32) : sizeOf (Word.toBigEndian size) = size :=
  Word.ofBigEndian_toBigEndian size

theorem decode_encode {image : Image} (size : image.size.toNat ≤ maxBlobSize) :
    decode image.encode = .ok image := by
  obtain ⟨⟨id, idLength⟩, size', ⟨nonce, nonceLength⟩⟩ := image
  have sixteen : id.length = 16 := idLength
  have afterId : (id ++ Word.toBigEndian size' ++ nonce).drop 16
      = Word.toBigEndian size' ++ nonce := by
    rw [List.append_assoc, List.drop_left' sixteen]
  have front : (id ++ Word.toBigEndian size' ++ nonce).take 16 = id := by
    rw [List.append_assoc, List.take_left' sixteen]
  have middle : (Word.toBigEndian size' ++ nonce).take 4 = Word.toBigEndian size' :=
    List.take_left' rfl
  have back : (id ++ Word.toBigEndian size' ++ nonce).drop 20 = nonce :=
    List.drop_left' (by rw [List.length_append, idLength]; rfl)
  have length : (id ++ Word.toBigEndian size' ++ nonce).length = bodySize := by
    rw [List.length_append, List.length_append, idLength, nonceLength]
    rfl
  have small : ¬ 2 ^ 31 ≤ size'.toNat := by
    simp only [maxBlobSize] at size
    omega
  unfold decode encode
  rw [dif_pos length]
  simp only [afterId, middle, sizeOf_toBigEndian, front, back, if_neg small]

end Image

/-! ## Locations -/

namespace Location

theorem parseNumber_ofBinary64 {number : Binary64} (finite : number.isFinite = true) :
    parseNumber (Decimal.ofBinary64 number) = .ok number := by
  rw [parseNumber, Decimal.binary64?_ofBinary64 finite]
  exact if_pos finite

/-- Only digits, points and signs stand in a number of the first line. -/
theorem WellFormed.mem_coordinate {location : Location} (wellFormed : location.WellFormed)
    {part : List Char} (mem : part ∈ location.coordinates) {c : Char} (h : c ∈ part) :
    Decimal.isDigit c = true ∨ c = '.' ∨ c = '-' := by
  simp only [coordinates, List.mem_cons, List.mem_map, Option.mem_toList] at mem
  rcases mem with rfl | rfl | ⟨accuracy, some, rfl⟩
  · exact Decimal.mem_ofBinary64 wellFormed.latitude h
  · exact Decimal.mem_ofBinary64 wellFormed.longitude h
  · exact Decimal.mem_ofBinary64 (wellFormed.accuracy accuracy some) h

theorem WellFormed.comma_not_mem {location : Location} (wellFormed : location.WellFormed)
    {part : List Char} (mem : part ∈ location.coordinates) : ',' ∉ part := by
  intro h
  have := wellFormed.mem_coordinate mem h
  revert this
  decide

/-- No line of an encoding holds a line break. -/
theorem WellFormed.newline_not_mem {location : Location} (wellFormed : location.WellFormed)
    {line : List Char} (mem : line ∈ location.lines) : '\n' ∉ line := by
  simp only [lines, List.mem_cons, List.mem_map, List.mem_append, Option.mem_toList] at mem
  rcases mem with rfl | ⟨text, name | address, rfl⟩
  · intro h
    rcases Text.eq_or_exists_of_mem_join h with comma | ⟨part, mem, inPart⟩
    · revert comma
      decide
    · have := wellFormed.mem_coordinate mem inPart
      revert this
      decide
  · exact wellFormed.name text name
  · exact wellFormed.address text address

theorem parseCoordinates_coordinates {location : Location} (wellFormed : location.WellFormed) :
    parseCoordinates location.coordinates
      = .ok { location with name := none, address := none } := by
  have latitude := parseNumber_ofBinary64 wellFormed.latitude
  have longitude := parseNumber_ofBinary64 wellFormed.longitude
  obtain ⟨_, _, accuracy, _, _⟩ := location
  cases accuracy with
  | none =>
    simp only [coordinates, Option.toList_none, List.map_nil, parseCoordinates, latitude, longitude]
    rfl
  | some number =>
    have accuracy := parseNumber_ofBinary64 (wellFormed.accuracy number rfl)
    simp only [coordinates, Option.toList_some, List.map_cons, List.map_nil, parseCoordinates,
      latitude, longitude, accuracy]
    rfl

/-- A name has its address after it, so one line is an address and two are a name and an address. -/
theorem withLines_lines {location : Location} (wellFormed : location.WellFormed) :
    withLines { location with name := none, address := none }
      ((location.name.toList ++ location.address.toList).map String.toList) = .ok location := by
  have addressed := wellFormed.addressed
  obtain ⟨_, _, _, name, address⟩ := location
  cases address with
  | none =>
    cases name with
    | none => rfl
    | some name => exact absurd (addressed rfl) (by simp)
  | some address =>
    cases name with
    | none => simp [withLines, String.ofList_toList]
    | some name => simp [withLines, String.ofList_toList]

theorem decode_encode {location : Location} (wellFormed : location.WellFormed) :
    decode location.encode = .ok location := by
  have linesApart : Text.split '\n' (Text.join '\n' location.lines) = location.lines :=
    Text.split_join (by simp [lines]) fun _ mem => wellFormed.newline_not_mem mem
  have numbersApart : Text.split ',' (Text.join ',' location.coordinates) = location.coordinates :=
    Text.split_join (by simp [coordinates]) fun _ mem => wellFormed.comma_not_mem mem
  unfold decode encode
  rw [Utf8.decodeChars_encodeChars]
  simp only [linesApart]
  rw [lines, ofLines, numbersApart, parseCoordinates_coordinates wellFormed]
  exact withLines_lines wellFormed

end Location

/-! ## Messages -/

namespace Message

@[simp] theorem ofTag_tag (type : MessageType) : MessageType.ofTag type.tag = .ok type := by
  cases type <;> rfl

/-- The message as its receiver learns of it. -/
def received : Message → Message
  | .file content => .file content.received
  | message => message

theorem decode_encode_eq (message : Message) :
    decode message.encode = decodeBody message.type message.body := by
  rw [encode, decode, ofTag_tag]
  rfl

/-- A message is received as it was made unless it is a file whose blob was not made as a file. -/
theorem received_eq_self_iff {message : Message} (built : message.Built) :
    message.received = message
      ↔ ∀ content, message = .file content → content.stored.blob.purpose = .file := by
  cases built with
  | file built =>
    obtain ⟨blob, _⟩ := StoredBlob.built_iff.1 built.stored
    simp only [received, Message.file.injEq, File.received_eq_self_iff blob]
    exact ⟨fun purpose _ same => same ▸ purpose, fun all => all _ rfl⟩
  | text content => simp [received]
  | location built => simp [received]
  | image built => simp [received]
  | receipt content => simp [received]

/-- What is read from the encoding of a message is what its receiver is to learn. -/
theorem decode_encode_received {message : Message} (built : message.Built) :
    decode message.encode = .ok message.received := by
  rw [decode_encode_eq]
  cases built with
  | text content =>
    have read := Utf8.decode_encode content
    simp only [type, body, decodeBody, read, received]
  | location built =>
    exact congrArg (Except.map Message.location) (Location.decode_encode built.wellFormed)
  | image built =>
    exact congrArg (Except.map Message.image) (Image.decode_encode (Image.built_iff.1 built))
  | file built =>
    obtain ⟨_, size⟩ := StoredBlob.built_iff.1 built.stored
    exact congrArg (Except.map Message.file) (File.decode_encode size)
  | receipt content =>
    exact congrArg (Except.map Message.receipt) (Receipt.decode_encode content)

/-- Every message that can be made is read back from its encoding, whole unless it is a file whose
blob was not made as a file: such a file comes back with the key, identifier and size of its blob
and with everything else it says. -/
theorem decode_encode_of_built {message : Message} (built : message.Built) :
    decode message.encode = .ok message.received
      ∧ (decode message.encode = .ok message
        ↔ ∀ content, message = .file content → content.stored.blob.purpose = .file) := by
  have read := decode_encode_received built
  refine ⟨read, ?_⟩
  rw [read, Except.ok.injEq]
  exact received_eq_self_iff built

/-- An image that is sent on as a file, with a name that needs escapes and an empty caption, is read
back with the nonce of a file. -/
theorem decode_encode_image_as_file :
    let image : StoredBlob :=
      ⟨Blob.image ⟨List.replicate 32 7, rfl⟩ ⟨List.replicate 24 9, rfl⟩, ⟨Bytes.zeros 16, rfl⟩, 5⟩
    let file := ((File.make image "image/png" .media).withName "\"π\"\n").withDescription ""
    decode (Message.file file).encode = .ok (.file file.received)
      ∧ decode (Message.file file).encode ≠ .ok (.file file) := by
  intro image file
  have stored : image.Built := StoredBlob.built_iff.2 ⟨.image _ _, by decide⟩
  have built : File.Built file := .withDescription (.withName (.make stored _ _) _) _
  obtain ⟨read, whole⟩ := decode_encode_of_built (.file built)
  refine ⟨read, ?_⟩
  intro same
  have purpose : BlobPurpose.image = BlobPurpose.file := whole.1 same file rfl
  cases purpose

end Message

end SealedEnvelope
