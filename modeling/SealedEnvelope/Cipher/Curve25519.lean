import SealedEnvelope.Bytes.Endian

/-!
# Curve25519 (SPEC_FULL §2)

Scalar multiplication on the Montgomery curve `y² = x³ + 486662 x² + x` over the field of
`2²⁵⁵ - 19` elements, on first coordinates only.
-/

set_option autoImplicit false

namespace SealedEnvelope

namespace Curve25519

/-- The number of elements of the field. -/
def prime : Nat := 2 ^ 255 - 19

/-- The sum in the field. -/
def add (a b : Nat) : Nat := (a + b) % prime

/-- The difference in the field, of reduced elements. -/
def sub (a b : Nat) : Nat := (a + prime - b) % prime

/-- The product in the field. -/
def mul (a b : Nat) : Nat := a * b % prime

/-- The lowest `count` bits of a number, the highest first. -/
def bits (count n : Nat) : List Bool := (List.range count).reverse.map n.testBit

/-- The power whose exponent has the given bits, the highest first. -/
def power (base : Nat) (exponent : List Bool) : Nat :=
  exponent.foldl (fun result bit =>
    let squared := mul result result
    if bit then mul squared base else squared) 1

/-- The inverse in the field; the inverse of zero is zero. -/
def inverse (a : Nat) : Nat := power a (bits 255 (prime - 2))

/-- Two neighbouring multiples of a point as fractions `x / z`. -/
structure Rungs where
  x2 : Nat
  z2 : Nat
  x3 : Nat
  z3 : Nat
  deriving DecidableEq, Repr, Inhabited

/-- The rungs in the other order. -/
def Rungs.swap (r : Rungs) : Rungs := ⟨r.x3, r.z3, r.x2, r.z2⟩

/-- The rungs for twice the first multiple and for the sum of both, whose difference is the point
with first coordinate `u`. -/
def Rungs.double (u : Nat) (r : Rungs) : Rungs :=
  let a := add r.x2 r.z2
  let aa := mul a a
  let b := sub r.x2 r.z2
  let bb := mul b b
  let e := sub aa bb
  let da := mul (sub r.x3 r.z3) a
  let cb := mul (add r.x3 r.z3) b
  let sum := add da cb
  let difference := sub da cb
  ⟨mul aa bb, mul e (add aa (mul 121665 e)), mul sum sum, mul u (mul difference difference)⟩

/-- One step of the ladder: the bit says which of the two multiples is doubled. -/
def Rungs.step (u : Nat) (r : Rungs) (bit : Bool) : Rungs :=
  if bit then (r.swap.double u).swap else r.double u

/-- The first coordinate of the multiple of the point with first coordinate `u`. -/
def multiply (scalar u : Nat) : Nat :=
  let u := u % prime
  let r := (bits 255 scalar).foldl (Rungs.step u) ⟨1, 0, u, 1⟩
  mul r.x2 (inverse r.z2)

/-- The scalar of a private key: a multiple of eight with its highest bit fixed. -/
def clampScalar (n : Nat) : Nat := n % 2 ^ 254 / 8 * 8 + 2 ^ 254

/-- The point that a private key takes a public key to; the highest bit of the public key says
nothing. -/
def agree (secret point : Bytes) : Bytes :=
  let scalar := clampScalar (Bytes.toNatLittleEndian secret)
  let u := Bytes.toNatLittleEndian point % 2 ^ 255
  Bytes.ofNatLittleEndian 32 (multiply scalar u)

/-- The point that public keys are multiples of. -/
def basePoint : Bytes := 9 :: Bytes.zeros 31

/-- The public key of a private key. -/
def publish (secret : Bytes) : Bytes := agree secret basePoint

@[simp] theorem length_agree (secret point : Bytes) : (agree secret point).length = 32 := by
  simp [agree]

@[simp] theorem length_publish (secret : Bytes) : (publish secret).length = 32 := by
  simp [publish]

end Curve25519

end SealedEnvelope
