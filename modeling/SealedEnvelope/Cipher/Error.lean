import SealedEnvelope.Octets

/-!
# Faults of the ciphers (SPEC_FULL §7)

What can go wrong with a key or a nonce that is given from outside, and with a box.
-/

set_option autoImplicit false

namespace SealedEnvelope

/-- Why a cipher refuses what it is given. -/
inductive CipherError where
  | keyLength (expected actual : Nat)
  | nonceLength (expected actual : Nat)
  | hex (fault : Hex.Fault)
  /-- The box was sealed under another key or nonce, or altered since. -/
  | rejected
  deriving DecidableEq, Repr, Inhabited

namespace CipherError

/-- The wording of an error. -/
def message : CipherError → String
  | .keyLength expected actual => s!"Invalid key length: expected {expected}, got {actual}"
  | .nonceLength expected actual => s!"Invalid nonce length: expected {expected}, got {actual}"
  | .hex fault => "Invalid hex string: " ++ fault.message
  | .rejected => "Decryption failed: invalid ciphertext or key"

/-- The error for a key or a nonce that could not be made. -/
def ofFault (role : Role) : Octets.Fault → CipherError
  | .hex fault => .hex fault
  | .length expected actual =>
    match role with
    | .nonce => .nonceLength expected actual
    | _ => .keyLength expected actual

end CipherError

namespace Octets

/-- A key or a nonce with the given bytes. -/
def materialOfBytes (role : Role) (bytes : Bytes) : Except CipherError (Octets role) :=
  (ofBytes role bytes).mapError (CipherError.ofFault role)

/-- A key or a nonce with the given hexadecimal text. -/
def materialOfHex (role : Role) (text : String) : Except CipherError (Octets role) :=
  (ofHex role text).mapError (CipherError.ofFault role)

end Octets

end SealedEnvelope
