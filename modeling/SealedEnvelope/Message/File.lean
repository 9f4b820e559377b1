import SealedEnvelope.Blob
import SealedEnvelope.Json.Writer

/-!
# Files (SPEC_FULL §6)

A file message names a stored file with its key and says what to show of it.  Its body is a record
in JSON with names of one letter; optional fields that are absent are left out.
-/

set_option autoImplicit false

namespace SealedEnvelope

/-- How the receiver should show a file. -/
inductive Rendering where
  | file
  | media
  | sticker
  deriving DecidableEq, Repr, Inhabited

namespace Rendering

/-- The number of a rendering in a message. -/
def value : Rendering → Nat
  | .file => 0
  | .media => 1
  | .sticker => 2

/-- The rendering with a number. -/
def ofValue : Nat → Except Error Rendering
  | 0 => .ok .file
  | 1 => .ok .media
  | 2 => .ok .sticker
  | value => .error (.malformed .fileMessage (.unknownRendering value))

/-- The name of a rendering. -/
def label : Rendering → String
  | .file => "DEFAULT"
  | .media => "MEDIA"
  | .sticker => "STICKER"

end Rendering

/-! ## The record -/

/-- The body of a file message as it is written. -/
structure FileRecord where
  blobId : String
  thumbnailId : Option String
  key : String
  mimeType : String
  name : Option String
  description : Option String
  correlationId : Option String
  size : Nat
  rendering : Nat
  deriving DecidableEq, Repr, Inhabited

namespace FileRecord

/-- The fields of the record, in the order they are written. -/
def fields : List Json.Field :=
  [⟨"b", Json.Value.isText, false⟩,
   ⟨"t", Json.Value.isTextOrNull, true⟩,
   ⟨"k", Json.Value.isText, false⟩,
   ⟨"m", Json.Value.isText, false⟩,
   ⟨"n", Json.Value.isTextOrNull, true⟩,
   ⟨"d", Json.Value.isTextOrNull, true⟩,
   ⟨"c", Json.Value.isTextOrNull, true⟩,
   ⟨"s", Json.Value.isNaturalUpTo (2 ^ 32 - 1), false⟩,
   ⟨"j", Json.Value.isNaturalUpTo 255, true⟩]

/-- A field that is written only if it is there. -/
def optionalMember (name : String) (text : Option String) : List (String × List Char) :=
  text.toList.map fun text => (name, Json.writeText text)

/-- The record in JSON. -/
def write (record : FileRecord) : List Char :=
  Json.writeObject
    ([("b", Json.writeText record.blobId)] ++ optionalMember "t" record.thumbnailId
      ++ [("k", Json.writeText record.key), ("m", Json.writeText record.mimeType)]
      ++ optionalMember "n" record.name ++ optionalMember "d" record.description
      ++ optionalMember "c" record.correlationId
      ++ [("s", Json.writeNatural record.size), ("j", Json.writeNatural record.rendering)])

/-- The record with the given fields.  Of those that are missing the first one is reported. -/
def ofFields (record : Json.Record) : Except Json.Fault FileRecord := do
  let blobId ← record.text "b"
  let key ← record.text "k"
  let mimeType ← record.text "m"
  let size ← record.natural "s"
  return {
    blobId, key, mimeType, size
    thumbnailId := record.text? "t"
    name := record.text? "n"
    description := record.text? "d"
    correlationId := record.text? "c"
    rendering := (record.natural? "j").getD 0 }

/-- The record that a value holds. -/
def ofValue (value : Json.Value) : Except Json.Fault FileRecord := do
  let record ← Json.Record.ofValue fields value
  ofFields record

/-- The record that a document holds. -/
def read (document : Bytes) : Except Json.Fault FileRecord := Json.document ofValue document

end FileRecord

/-! ## File messages -/

/-- A reference to a stored file, with what to show of it. -/
structure File where
  stored : StoredBlob
  thumbnailId : Option BlobId
  mimeType : String
  rendering : Rendering
  name : Option String
  description : Option String
  correlationId : Option String
  deriving DecidableEq

namespace File

/-- The file with a kind of contents and a rendering, and nothing else said about it. -/
def make (stored : StoredBlob) (mimeType : String) (rendering : Rendering) : File :=
  ⟨stored, none, mimeType, rendering, none, none, none⟩

/-- The file with a stored thumbnail, of which only the identifier is kept. -/
def withThumbnail (file : File) (thumbnail : StoredBlob) : File :=
  { file with thumbnailId := some thumbnail.id }

/-- The file with a name. -/
def withName (file : File) (name : String) : File := { file with name := some name }

/-- The file with a caption. -/
def withDescription (file : File) (description : String) : File :=
  { file with description := some description }

/-- The file with the mark that it shares with related ones. -/
def withCorrelationId (file : File) (mark : String) : File :=
  { file with correlationId := some mark }

/-- The stored thumbnail.  It has the key of the file, and for want of its own the size of it. -/
def storedThumbnail (file : File) : Option StoredBlob :=
  file.thumbnailId.map fun id => ⟨file.stored.thumbnail, id, file.stored.size⟩

/-- The record that says all a receiver is told. -/
def record (file : File) : FileRecord :=
  { blobId := file.stored.id.toHex
    thumbnailId := file.thumbnailId.map Octets.toHex
    key := file.stored.blob.key.toHex
    mimeType := file.mimeType
    name := file.name
    description := file.description
    correlationId := file.correlationId
    size := file.stored.size.toNat
    rendering := file.rendering.value }

/-- The body of a file message. -/
def encode (file : File) : Bytes := Utf8.encodeChars file.record.write

/-- A key or an identifier inside a record. -/
def parseOctets (role : Role) (subject : Subject) (text : String) : Except Error (Octets role) :=
  (Octets.ofHex role text).mapError (Error.ofNestedFault .fileMessage subject)

/-- The file that a record describes.  The size is checked first, then the key, the identifiers and
the rendering. -/
def ofRecord (record : FileRecord) : Except Error File :=
  if maxBlobSize < record.size then
    .error (.malformed .fileMessage (.sizeTooLarge record.size))
  else do
    let key ← parseOctets .symmetricKey .fileKey record.key
    let id ← parseOctets .blobId .blobId record.blobId
    let thumbnailId ←
      match record.thumbnailId with
      | none => pure none
      | some text => (parseOctets .blobId .blobId text).map some
    let rendering ← Rendering.ofValue record.rendering
    return {
      stored := ⟨Blob.file key, id, UInt32.ofNat record.size⟩
      thumbnailId
      mimeType := record.mimeType
      rendering
      name := record.name
      description := record.description
      correlationId := record.correlationId }

/-- The file that the body of a message holds. -/
def decode (body : Bytes) : Except Error File :=
  match FileRecord.read body with
  | .ok record => ofRecord record
  | .error fault => .error (.malformed .fileMessage (.notRecord fault))

/-- The description of a file, which keeps its key and name to itself. -/
def describe (file : File) : String :=
  let parts := [file.stored.id.toHex] ++ file.thumbnailId.toList.map Octets.toHex
    ++ [file.mimeType, file.rendering.label] ++ file.description.toList
  "File[" ++ String.intercalate ", " parts ++ "]"

end File

end SealedEnvelope
