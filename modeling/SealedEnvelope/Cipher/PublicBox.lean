import SealedEnvelope.Cipher.Curve25519
import SealedEnvelope.Cipher.SecretBox
import SealedEnvelope.RandomSource

/-!
# Public-key boxes (SPEC_FULL §2, §4.3)

Two participants agree on a key, each from their own private key and the other's public key, and
seal under it with a nonce drawn for the one box.
-/

set_option autoImplicit false

namespace SealedEnvelope

namespace PrivateKey

/-- The public key that belongs to a private key. -/
def publicKey (own : PrivateKey) : PublicKey :=
  ⟨Curve25519.publish own.toList, by simp [Role.size]⟩

/-- The key that two participants agree on: the point they share, derived once more so that no
structure of the curve is left in it. -/
def agree (own : PrivateKey) (other : PublicKey) : SymmetricKey :=
  ⟨Salsa20.deriveKey (Curve25519.agree own.toList other.toList) (Bytes.zeros 16), by
    simp [Role.size]⟩

end PrivateKey

/-- A private key with its public key. -/
structure KeyPair where
  privateKey : PrivateKey
  publicKey : PublicKey
  deriving DecidableEq

namespace KeyPair

/-- The pair of a private key. -/
def ofPrivateKey (own : PrivateKey) : KeyPair := ⟨own, PrivateKey.publicKey own⟩

/-- A new pair from a random source. -/
def generate (source : RandomSource) : KeyPair × RandomSource :=
  let (own, source) := source.drawOctets .privateKey
  (ofPrivateKey own, source)

/-- The description of a pair, which shows its public key alone. -/
def describe (pair : KeyPair) : String :=
  "X25519KeyPair \x7b public: " ++ pair.publicKey.describe ++ " \x7d"

end KeyPair

namespace PublicBox

/-- The box of a plaintext from `sender` to `receiver`, and the nonce that must travel with it. -/
def encrypt (sender : PrivateKey) (receiver : PublicKey) (plaintext : Bytes)
    (source : RandomSource) : (Bytes × Nonce) × RandomSource :=
  let (nonce, source) := source.drawOctets .nonce
  ((SecretBox.encrypt (PrivateKey.agree sender receiver) nonce plaintext, nonce), source)

/-- The plaintext of a box from `sender` to `receiver`. -/
def decrypt (receiver : PrivateKey) (sender : PublicKey) (nonce : Nonce) (box : Bytes) :
    Except CipherError Bytes :=
  SecretBox.decrypt (PrivateKey.agree receiver sender) nonce box

end PublicBox

end SealedEnvelope
