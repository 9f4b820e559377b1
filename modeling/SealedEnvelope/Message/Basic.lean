import SealedEnvelope.Message.File
import SealedEnvelope.Message.Image
import SealedEnvelope.Message.Location
import SealedEnvelope.Message.Receipt

/-!
# Messages (SPEC_FULL §4.2, §6)

A plain message is encoded as a byte that tells its type, followed by a body of that type.
-/

set_option autoImplicit false

namespace SealedEnvelope

/-- The type of a message. -/
inductive MessageType where
  | text
  | image
  | location
  | file
  | receipt
  deriving DecidableEq, Repr, Inhabited

namespace MessageType

/-- The byte that tells a type. -/
def tag : MessageType → UInt8
  | .text => 0x01
  | .image => 0x02
  | .location => 0x10
  | .file => 0x17
  | .receipt => 0x80

/-- The type that a byte tells. -/
def ofTag (tag : UInt8) : Except Error MessageType :=
  if tag = 0x01 then .ok .text
  else if tag = 0x02 then .ok .image
  else if tag = 0x10 then .ok .location
  else if tag = 0x17 then .ok .file
  else if tag = 0x80 then .ok .receipt
  else .error (.unknownTag tag)

/-- The name of a type. -/
def label : MessageType → String
  | .text => "Text"
  | .image => "Image"
  | .location => "Location"
  | .file => "File"
  | .receipt => "DeliveryReceipt"

end MessageType

/-- A message before it is sealed. -/
inductive Message where
  | text (content : String)
  | location (content : Location)
  | image (content : Image)
  | file (content : File)
  | receipt (content : Receipt)
  deriving DecidableEq

namespace Message

/-- The type of a message. -/
def type : Message → MessageType
  | .text _ => .text
  | .location _ => .location
  | .image _ => .image
  | .file _ => .file
  | .receipt _ => .receipt

/-- The body of a message. -/
def body : Message → Bytes
  | .text content => Utf8.encode content
  | .location content => content.encode
  | .image content => content.encode
  | .file content => content.encode
  | .receipt content => content.encode

/-- The encoding of a message. -/
def encode (message : Message) : Bytes := message.type.tag :: message.body

/-- The message of a known type that a body holds. -/
def decodeBody (type : MessageType) (body : Bytes) : Except Error Message :=
  match type with
  | .text =>
    match Utf8.decode body with
    | .ok content => .ok (.text content)
    | .error fault => .error (.malformed .textMessage (.notText fault))
  | .image => (Image.decode body).map .image
  | .location => (Location.decode body).map .location
  | .file => (File.decode body).map .file
  | .receipt => (Receipt.decode body).map .receipt

/-- The message that an encoding holds. -/
def decode : Bytes → Except Error Message
  | [] => .error (.malformed .message .missingTag)
  | tag :: body => do
    let type ← MessageType.ofTag tag
    decodeBody type body

/-- The description of a message. -/
def describe : Message → String
  | .text content => "Text[" ++ content ++ "]"
  | .location content => content.describe
  | .image content => content.describe
  | .file content => content.describe
  | .receipt content => content.describe

end Message

end SealedEnvelope
