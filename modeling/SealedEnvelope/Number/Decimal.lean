import SealedEnvelope.Number.Binary64

/-!
# Decimal texts of numbers

Integers, and numbers with a decimal point and a power of ten, read exactly and rounded once.
-/

set_option autoImplicit false

namespace SealedEnvelope

namespace Decimal

/-! ## Digits -/

/-- Whether a character is one of the ten digits of ASCII. -/
def isDigit (c : Char) : Bool := '0' ≤ c && c ≤ '9'

/-- The number that a digit stands for. -/
def digitValue (c : Char) : Nat := c.toNat - 48

/-- The number that a list of digits stands for. -/
def ofDigits (digits : List Char) : Nat := digits.foldl (fun n c => 10 * n + digitValue c) 0

/-- The decimal digits of a natural number. -/
def digits (n : Nat) : List Char := Nat.toDigits 10 n

/-! ## Integers -/

/-- The natural number that a text of one digit or more stands for. -/
def natural? (text : List Char) : Option Nat :=
  if text.isEmpty || !text.all isDigit then none else some (ofDigits text)

/-- The integer that a text stands for: one sign at most, then one digit or more. -/
def integer? : List Char → Option Int
  | '-' :: text => (natural? text).map fun n => -(n : Int)
  | '+' :: text => (natural? text).map fun n => (n : Int)
  | text => (natural? text).map fun n => (n : Int)

/-- The decimal text of an integer. -/
def ofInteger (i : Int) : List Char :=
  if i < 0 then '-' :: digits i.natAbs else digits i.natAbs

/-! ## Numbers with a point and a power of ten -/

/-- The pattern of the magnitude nearest to `coefficient` times ten to the power `exponent`.  Beyond
the first two tests the power has at most a few more digits than the coefficient. -/
def round (coefficient : Nat) (exponent : Int) : Nat :=
  let size : Int := (digits coefficient).length + exponent
  if coefficient = 0 then 0
  else if 310 < size then Binary64.infinite
  else if size < -330 then 0
  else if 0 ≤ exponent then
    Binary64.nearest (coefficient * 10 ^ exponent.toNat * 2 ^ 1074) 1
  else Binary64.nearest (coefficient * 2 ^ 1074) (10 ^ (-exponent).toNat)

/-- The power of ten that the end of a number gives: nothing, or a letter `e` and an integer. -/
def exponent? : List Char → Option Int
  | [] => some 0
  | c :: text => if c = 'e' || c = 'E' then integer? text else none

/-- The coefficient and the power of ten of a number without a sign: digits, a point, more digits
and a power of ten, where one of the two lists of digits may be missing, and so may the rest. -/
def unsigned? (text : List Char) : Option (Nat × Int) :=
  let whole := text.takeWhile isDigit
  let rest := text.dropWhile isDigit
  let fraction :=
    match rest with
    | '.' :: more => more.takeWhile isDigit
    | _ => []
  let rest :=
    match rest with
    | '.' :: more => more.dropWhile isDigit
    | _ => rest
  if whole.isEmpty && fraction.isEmpty then none
  else (exponent? rest).map fun e => (ofDigits (whole ++ fraction), e - fraction.length)

/-- The pattern of a number without a sign, or of a word for an infinite or undefined one. -/
def magnitude? (text : List Char) : Option Nat :=
  let word := String.ofList (text.map Char.toLower)
  if word = "inf" || word = "infinity" then some Binary64.infinite
  else if word = "nan" then some Binary64.nan.magnitude
  else (unsigned? text).map fun (coefficient, exponent) => round coefficient exponent

/-- The number that a text stands for, rounded to the nearest one. -/
def binary64? : List Char → Option Binary64
  | '-' :: text => (magnitude? text).map (Binary64.ofMagnitude true)
  | '+' :: text => (magnitude? text).map (Binary64.ofMagnitude false)
  | text => (magnitude? text).map (Binary64.ofMagnitude false)

end Decimal

end SealedEnvelope
