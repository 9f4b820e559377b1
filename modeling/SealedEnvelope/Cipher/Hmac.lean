import SealedEnvelope.Cipher.Sha256

/-!
# Message authentication with a shared secret (SPEC_FULL §2)

HMAC over SHA-256: the key goes in front of the message, and once more in front of its hash.
-/

set_option autoImplicit false

namespace SealedEnvelope

namespace Hmac

/-- A key brought to the size of a hash block: a longer one is hashed, and zeros follow. -/
def blockKey (key : Bytes) : Bytes :=
  let short := if key.length ≤ 64 then key else Sha256.hash key
  short ++ Bytes.zeros (64 - short.length)

/-- The thirty-two bytes that authenticate `message` under `key`. -/
def authenticate (key message : Bytes) : Bytes :=
  let inner := (blockKey key).map (· ^^^ 0x36)
  let outer := (blockKey key).map (· ^^^ 0x5c)
  Sha256.hash (outer ++ Sha256.hash (inner ++ message))

/-- The bytes that authenticate a message given in parts; where the parts meet leaves no trace. -/
def authenticateParts (key : Bytes) (parts : List Bytes) : Bytes := authenticate key parts.flatten

@[simp] theorem length_authenticate (key message : Bytes) :
    (authenticate key message).length = 32 := by
  simp [authenticate]

end Hmac

end SealedEnvelope
