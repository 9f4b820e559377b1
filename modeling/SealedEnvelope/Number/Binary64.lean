/-!
# Binary64 numbers

The floating-point numbers of 64 bits as bit patterns.  Every finite magnitude is a natural multiple
of the least positive one, `2⁻¹⁰⁷⁴`, so that rounding is a matter of natural numbers alone.
-/

set_option autoImplicit false

namespace SealedEnvelope

/-- A binary64 number: a sign bit, eleven bits of exponent and fifty-two of fraction. -/
structure Binary64 where
  bits : UInt64
  deriving DecidableEq, Repr, Inhabited

namespace Binary64

/-! ## Bit patterns -/

/-- The pattern of the infinite magnitude. -/
def infinite : Nat := 2047 * 2 ^ 52

/-- Whether the sign bit is set. -/
def isNegative (x : Binary64) : Bool := 2 ^ 63 ≤ x.bits.toNat

/-- The pattern without the sign bit; it grows with the magnitude. -/
def magnitude (x : Binary64) : Nat := x.bits.toNat % 2 ^ 63

/-- Whether a number is neither infinite nor undefined. -/
def isFinite (x : Binary64) : Bool := x.magnitude < infinite

/-- Whether a number is undefined. -/
def isNaN (x : Binary64) : Bool := infinite < x.magnitude

/-- The number with a sign and a pattern of its magnitude. -/
def ofMagnitude (negative : Bool) (magnitude : Nat) : Binary64 :=
  ⟨UInt64.ofNat (if negative then 2 ^ 63 + magnitude else magnitude)⟩

/-- An undefined number. -/
def nan : Binary64 := ofMagnitude false (infinite + 2 ^ 51)

/-! ## Magnitudes as multiples of the least one -/

/-- How many times `2⁻¹⁰⁷⁴` the magnitude with the given pattern is. -/
def unitsOf (magnitude : Nat) : Nat :=
  if magnitude < 2 ^ 52 then magnitude
  else (2 ^ 52 + magnitude % 2 ^ 52) * 2 ^ (magnitude / 2 ^ 52 - 1)

/-- How many times `2⁻¹⁰⁷⁴` a finite number is, regardless of its sign. -/
def units (x : Binary64) : Nat := unitsOf x.magnitude

/-- The pattern of the magnitude nearest to `num / den` times `2⁻¹⁰⁷⁴`, of two equally near ones
the even one.  The highest bits of the quotient, together with the number of bits below them, are
the pattern itself, and adding one to it gives the next magnitude. -/
def nearest (num den : Nat) : Nat :=
  let quotient := num / den
  let shift := quotient.log2 - 52
  let top := quotient / 2 ^ shift
  let below := shift * 2 ^ 52 + top
  let rest := num - top * 2 ^ shift * den
  let pattern :=
    if 2 * rest < 2 ^ shift * den then below
    else if 2 * rest = 2 ^ shift * den then below + below % 2
    else below + 1
  min pattern infinite

end Binary64

end SealedEnvelope
