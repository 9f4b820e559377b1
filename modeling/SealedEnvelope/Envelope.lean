import SealedEnvelope.Message.Basic
import SealedEnvelope.Padding

/-!
# Envelopes (SPEC_FULL §4.4)

A message is encoded, padded at random and sealed in a box for its receiver.  An envelope is the box
with its nonce, no larger than the gateway carries.
-/

set_option autoImplicit false

namespace SealedEnvelope

/-- The greatest number of bytes of a box that the gateway carries. -/
def maxContentLength : Nat := 4000

/-- A box with the nonce that it was sealed under. -/
structure Envelope where
  box : Bytes
  nonce : Nonce
  length_le : box.length ≤ maxContentLength
  deriving DecidableEq

namespace Envelope

/-! ## Making envelopes -/

/-- The envelope of a box and its nonce, if the box is not too large. -/
def make (box : Bytes) (nonce : Nonce) : Except Error Envelope :=
  if h : box.length ≤ maxContentLength then .ok ⟨box, nonce, h⟩
  else .error (.contentTooLarge maxContentLength box.length)

/-- The envelope of a box and a nonce in hexadecimal text.  The box is read first, and its size is
looked at last. -/
def ofHex (box nonce : String) : Except Error Envelope :=
  match Hex.decode box with
  | .error fault => .error (.notHex .box fault)
  | .ok box =>
    match Octets.parseHex .nonce .nonce nonce with
    | .error error => .error error
    | .ok nonce => make box nonce

/-- The box in hexadecimal text. -/
def boxHex (envelope : Envelope) : String := Hex.encode envelope.box

/-- The nonce in hexadecimal text. -/
def nonceHex (envelope : Envelope) : String := envelope.nonce.toHex

/-- The description of an envelope. -/
def describe (envelope : Envelope) : String :=
  let length := envelope.box.length
  s!"EncryptedMessage \x7b len: {length}, nonce: " ++ envelope.nonce.describe ++ " \x7d"

/-! ## Sealing and opening -/

/-- Seals a message from `sender` to `receiver` in a box of at most `limit` bytes.  The number of
padding bytes is drawn first, and the nonce only if the box is not too large. -/
def encrypt (message : Message) (sender : PrivateKey) (receiver : PublicKey) (limit : Nat)
    (source : RandomSource) : Except Error Envelope × RandomSource :=
  let limit := min limit maxContentLength
  let (padded, source) := Padding.pad message.encode source
  let length := padded.length + SecretBox.tagSize
  if limit < length then (.error (.contentTooLarge limit length), source)
  else
    let ((box, nonce), source) := PublicBox.encrypt sender receiver padded source
    (make box nonce, source)

/-- Opens an envelope from `sender` to `receiver`. -/
def decrypt (envelope : Envelope) (sender : PublicKey) (receiver : PrivateKey) :
    Except Error Message := do
  let padded ← (PublicBox.decrypt receiver sender envelope.nonce envelope.box).mapError
    Error.ofCipher
  let encoding ← Padding.unpad padded
  Message.decode encoding

variable {envelope : Envelope} {sender : PublicKey} {receiver : PrivateKey}

/-- What is in a box that opens is stripped of its padding, and only then read. -/
theorem decrypt_of_opened {padded : Bytes}
    (opened : PublicBox.decrypt receiver sender envelope.nonce envelope.box = .ok padded) :
    envelope.decrypt sender receiver = Padding.unpad padded >>= Message.decode := by
  unfold decrypt
  rw [opened]
  rfl

/-- A box that does not open tells why. -/
theorem decrypt_of_refused {fault : CipherError}
    (refused : PublicBox.decrypt receiver sender envelope.nonce envelope.box = .error fault) :
    envelope.decrypt sender receiver = .error (Error.ofCipher fault) := by
  unfold decrypt
  rw [refused]
  rfl

end Envelope

end SealedEnvelope
