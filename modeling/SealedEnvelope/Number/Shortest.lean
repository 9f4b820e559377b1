import SealedEnvelope.Number.Decimal

/-!
# Shortest decimal texts

The decimal text of a binary64 number has the fewest digits that read back to it, and of the texts
with so few digits it is the nearest.  It is written without a power of ten.
-/

set_option autoImplicit false

namespace SealedEnvelope

namespace Decimal

/-- The number of digits that a positive magnitude of `units` times `2⁻¹⁰⁷⁴` has before its decimal
point; negative if zeros follow the point. -/
def wholeDigits (units : Nat) : Int := (digits (units * 10 ^ 400 / 2 ^ 1074)).length - 400

/-- The two neighbours of a magnitude among the multiples of ten to the power `exponent`, the nearer
one first and of two equally near ones the upper. -/
def neighbours (units : Nat) (exponent : Int) : List (Nat × Int) :=
  let num := if 0 ≤ exponent then units else units * 10 ^ (-exponent).toNat
  let den := if 0 ≤ exponent then 2 ^ 1074 * 10 ^ exponent.toNat else 2 ^ 1074
  let lower := (num / den, exponent)
  let upper := (num / den + 1, exponent)
  if 2 * (num % den) < den then [lower, upper] else [upper, lower]

/-- The same number without a zero at the end of its coefficient. -/
def withoutZero : Nat × Int → Nat × Int
  | (coefficient, exponent) =>
    if coefficient % 10 = 0 then (coefficient / 10, exponent + 1) else (coefficient, exponent)

/-- The nearest decimal number with so many digits that reads back to `magnitude`. -/
def withDigits? (magnitude count : Nat) : Option (Nat × Int) :=
  let units := Binary64.unitsOf magnitude
  ((neighbours units (wholeDigits units - count)).map withoutZero).find? fun (c, e) =>
    round c e = magnitude

/-- The number itself, all digits written out. -/
def exact (magnitude : Nat) : Nat × Int := (Binary64.unitsOf magnitude * 5 ^ 1074, -1074)

/-- The coefficient and the power of ten of the shortest decimal number that reads back to
`magnitude`.  Seventeen digits always do. -/
def shortest (magnitude : Nat) : Nat × Int :=
  if magnitude = 0 then (0, 0)
  else ((List.range' 1 17).findSome? (withDigits? magnitude)).getD (exact magnitude)

/-- A decimal number without a power of ten: zeros after the digits, or a point among them. -/
def positional (coefficient : Nat) (exponent : Int) : List Char :=
  let ds := digits coefficient
  if 0 ≤ exponent then ds ++ List.replicate exponent.toNat '0'
  else
    let places := (-exponent).toNat
    if places < ds.length then
      ds.take (ds.length - places) ++ '.' :: ds.drop (ds.length - places)
    else '0' :: '.' :: (List.replicate (places - ds.length) '0' ++ ds)

/-- The text of a number: an undefined one has no sign. -/
def ofBinary64 (x : Binary64) : List Char :=
  let sign := if x.isNegative then ['-'] else []
  if x.isNaN then ['N', 'a', 'N']
  else if !x.isFinite then sign ++ ['i', 'n', 'f']
  else
    let (coefficient, exponent) := shortest x.magnitude
    sign ++ positional coefficient exponent

end Decimal

namespace Binary64

/-- The shortest decimal text that reads back to a number. -/
def text (x : Binary64) : String := String.ofList (Decimal.ofBinary64 x)

end Binary64

end SealedEnvelope
