import SealedEnvelope.Bytes.Endian

/-!
# One-time authentication (SPEC_FULL §2)

Poly1305: the message as the coefficients of a polynomial modulo a prime, evaluated at a secret
point, plus a secret constant.
-/

set_option autoImplicit false

namespace SealedEnvelope

namespace Poly1305

/-- The prime that the polynomial is reduced by. -/
def prime : Nat := 2 ^ 130 - 5

/-- A number with the bits cleared that the secret point never has. -/
def clamp (n : Nat) : Nat := n &&& 0x0ffffffc0ffffffc0ffffffc0fffffff

/-- The coefficient of a group of bytes: its number with a one above its last byte, so that groups
of different lengths differ. -/
def coefficient (group : Bytes) : Nat := Bytes.toNatLittleEndian (group ++ [1])

/-- The value of the polynomial of a message at `point`. -/
def evaluate (point : Nat) (message : Bytes) : Nat :=
  (Bytes.groups 16 message).foldl (fun sum group => (sum + coefficient group) * point % prime) 0

/-- The sixteen bytes that authenticate `message` under a key of thirty-two bytes: the point, then
the constant. -/
def tag (key message : Bytes) : Bytes :=
  let point := clamp (Bytes.toNatLittleEndian (key.take 16))
  let constant := Bytes.toNatLittleEndian (key.drop 16)
  Bytes.ofNatLittleEndian 16 (evaluate point message + constant)

@[simp] theorem length_tag (key message : Bytes) : (tag key message).length = 16 := by
  simp [tag]

end Poly1305

end SealedEnvelope
