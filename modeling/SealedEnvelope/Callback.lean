import SealedEnvelope.Cipher.Hmac
import SealedEnvelope.Envelope
import SealedEnvelope.Form
import SealedEnvelope.Identity
import SealedEnvelope.Timestamp

/-!
# Callbacks (SPEC_FULL §4.6)

The gateway hands on a message as a form body that is signed with a shared secret.  Nothing of the
body is parsed before the signature is found to be right.
-/

set_option autoImplicit false

namespace SealedEnvelope

/-! ## The signed fields -/

/-- The texts that the signature of a callback covers. -/
structure SignedFields where
  sender : String
  receiver : String
  messageId : String
  date : String
  nonce : String
  box : String
  deriving DecidableEq, Repr, Inhabited

namespace SignedFields

/-- The texts in the order in which they are signed. -/
def parts (fields : SignedFields) : List String :=
  [fields.sender, fields.receiver, fields.messageId, fields.date, fields.nonce, fields.box]

/-- The bytes that are signed: the texts with nothing between them. -/
def signedBytes (fields : SignedFields) : Bytes := (fields.parts.map Utf8.encode).flatten

/-- The signature under a secret. -/
def mac (fields : SignedFields) (secret : String) : String :=
  Hex.encode (Hmac.authenticateParts (Utf8.encode secret) (fields.parts.map Utf8.encode))

/-- The signature depends on the signed bytes alone. -/
theorem mac_eq (fields : SignedFields) (secret : String) :
    fields.mac secret
      = Hex.encode (Hmac.authenticate (Utf8.encode secret) fields.signedBytes) := rfl

end SignedFields

/-! ## Verification -/

/-- A message that the gateway has handed on. -/
structure Callback where
  sender : Identity
  receiver : Identity
  messageId : MessageId
  date : Timestamp
  envelope : Envelope
  nickname : Option String
  deriving DecidableEq

namespace Callback

/-- The field of a body that must be there. -/
def required (fields : Table String String) (field : CallbackField) : Except Error String :=
  match fields.get? field.name with
  | some text => .ok text
  | none => .error (.missingField field)

/-- The signed fields of a body and its signature.  Of those that are missing the first is
reported. -/
def signedFields (fields : Table String String) : Except Error (SignedFields × String) := do
  let sender ← required fields .sender
  let receiver ← required fields .receiver
  let messageId ← required fields .messageId
  let date ← required fields .date
  let nonce ← required fields .nonce
  let box ← required fields .box
  let mac ← required fields .mac
  return (⟨sender, receiver, messageId, date, nonce, box⟩, mac)

/-- The callback that the signed fields describe. -/
def ofFields (fields : SignedFields) (nickname : Option String) : Except Error Callback := do
  let sender ← Identity.parse fields.sender
  let receiver ← Identity.parse fields.receiver
  let messageId ← Octets.parseHex .messageId .messageId fields.messageId
  let date ← Timestamp.parse fields.date
  let envelope ← Envelope.ofHex fields.box fields.nonce
  return ⟨sender, receiver, messageId, date, envelope, nickname⟩

/-- The callback that the fields of a body describe, if they are signed with `secret`. -/
def verifyFields (secret : String) (fields : Table String String) : Except Error Callback := do
  let (signed, mac) ← signedFields fields
  if signed.mac secret = mac then ofFields signed (fields.get? "nickname")
  else throw .wrongSignature

/-- The callback that a body describes, if it is signed with `secret`. -/
def verify (secret body : String) : Except Error Callback := verifyFields secret (Form.decode body)

/-- The callback that a body in UTF-8 describes, if it is signed with `secret`. -/
def verifyBytes (secret : String) (body : Bytes) : Except Error Callback :=
  match Utf8.decode body with
  | .ok body => verify secret body
  | .error fault => .error (.malformed .callbackBody (.notText fault))

/-- Opens the envelope that a callback hands on. -/
def decrypt (callback : Callback) (sender : PublicKey) (receiver : PrivateKey) :
    Except Error Message :=
  callback.envelope.decrypt sender receiver

end Callback

/-- A party that can tell genuine callbacks by the secret it shares with the gateway. -/
structure CallbackVerifier where
  secret : String
  deriving DecidableEq, Repr, Inhabited

namespace CallbackVerifier

/-- The callback that a body describes, if it is genuine. -/
def verify (verifier : CallbackVerifier) (body : String) : Except Error Callback :=
  Callback.verify verifier.secret body

/-- The description of a verifier, which keeps its secret to itself. -/
def describe (_ : CallbackVerifier) : String :=
  "CallbackVerifier \x7b secret: " ++ Text.quoted "[REDACTED]" ++ " \x7d"

end CallbackVerifier

end SealedEnvelope
