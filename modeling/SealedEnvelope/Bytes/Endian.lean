import SealedEnvelope.Bytes.Basic

/-!
# Numbers as bytes

Words of 32 bits in either byte order, and naturals of any size with the least byte first.
-/

set_option autoImplicit false

namespace SealedEnvelope

namespace Word

/-- The word whose bytes are given from the most significant one. -/
def ofBigEndian (a b c d : UInt8) : UInt32 :=
  UInt32.ofNat (((a.toNat * 256 + b.toNat) * 256 + c.toNat) * 256 + d.toNat)

/-- The word whose bytes are given from the least significant one. -/
def ofLittleEndian (a b c d : UInt8) : UInt32 := ofBigEndian d c b a

/-- The four bytes of a word, the most significant one first. -/
def toBigEndian (word : UInt32) : Bytes :=
  [UInt8.ofNat (word.toNat / 16777216), UInt8.ofNat (word.toNat / 65536),
    UInt8.ofNat (word.toNat / 256), UInt8.ofNat word.toNat]

/-- The four bytes of a word, the least significant one first. -/
def toLittleEndian (word : UInt32) : Bytes :=
  [UInt8.ofNat word.toNat, UInt8.ofNat (word.toNat / 256),
    UInt8.ofNat (word.toNat / 65536), UInt8.ofNat (word.toNat / 16777216)]

/-- The big-endian words of a byte string; up to three bytes at its end are dropped. -/
def listOfBigEndian : Bytes → List UInt32
  | a :: b :: c :: d :: rest => ofBigEndian a b c d :: listOfBigEndian rest
  | _ => []

/-- The little-endian words of a byte string; up to three bytes at its end are dropped. -/
def listOfLittleEndian : Bytes → List UInt32
  | a :: b :: c :: d :: rest => ofLittleEndian a b c d :: listOfLittleEndian rest
  | _ => []

/-- The word with its bits moved up by `count` places, those that leave entering again below. -/
def rotateLeft (word count : UInt32) : UInt32 := (word <<< count) ||| (word >>> (32 - count))

/-- The word with its bits moved down by `count` places, those that leave entering again above. -/
def rotateRight (word count : UInt32) : UInt32 := (word >>> count) ||| (word <<< (32 - count))

@[simp] theorem length_toBigEndian (word : UInt32) : (toBigEndian word).length = 4 := rfl

@[simp] theorem length_toLittleEndian (word : UInt32) : (toLittleEndian word).length = 4 := rfl

theorem toNat_ofBigEndian (a b c d : UInt8) :
    (ofBigEndian a b c d).toNat = ((a.toNat * 256 + b.toNat) * 256 + c.toNat) * 256 + d.toNat := by
  have := a.toNat_lt
  have := b.toNat_lt
  have := c.toNat_lt
  have := d.toNat_lt
  rw [ofBigEndian, UInt32.toNat_ofNat']
  omega

@[simp] theorem toBigEndian_ofBigEndian (a b c d : UInt8) :
    toBigEndian (ofBigEndian a b c d) = [a, b, c, d] := by
  have := a.toNat_lt
  have := b.toNat_lt
  have := c.toNat_lt
  have := d.toNat_lt
  simp only [toBigEndian, toNat_ofBigEndian, List.cons.injEq, and_true, ← UInt8.toNat_inj,
    UInt8.toNat_ofNat']
  omega

@[simp] theorem ofBigEndian_toBigEndian (word : UInt32) :
    ofBigEndian (UInt8.ofNat (word.toNat / 16777216)) (UInt8.ofNat (word.toNat / 65536))
      (UInt8.ofNat (word.toNat / 256)) (UInt8.ofNat word.toNat) = word := by
  have := word.toNat_lt
  rw [← UInt32.toNat_inj, toNat_ofBigEndian]
  simp only [UInt8.toNat_ofNat']
  omega

end Word

namespace Bytes

/-- The natural number whose bytes are given from the least significant one. -/
def toNatLittleEndian : Bytes → Nat
  | [] => 0
  | byte :: rest => byte.toNat + 256 * toNatLittleEndian rest

/-- The `count` least significant bytes of a natural number, the least significant one first. -/
def ofNatLittleEndian : Nat → Nat → Bytes
  | 0, _ => []
  | count + 1, n => UInt8.ofNat n :: ofNatLittleEndian count (n / 256)

/-- The `count` least significant bytes of a natural number, the most significant one first. -/
def ofNatBigEndian (count n : Nat) : Bytes := (ofNatLittleEndian count n).reverse

theorem toNatLittleEndian_lt (bytes : Bytes) : toNatLittleEndian bytes < 256 ^ bytes.length := by
  induction bytes with
  | nil => exact Nat.one_pos
  | cons byte rest ih =>
    have := byte.toNat_lt
    rw [toNatLittleEndian, List.length_cons, Nat.pow_succ]
    omega

theorem toNatLittleEndian_lt_word {bytes : Bytes} (short : bytes.length ≤ 4) :
    toNatLittleEndian bytes < 2 ^ 32 :=
  calc toNatLittleEndian bytes < 256 ^ bytes.length := toNatLittleEndian_lt bytes
    _ ≤ 256 ^ 4 := Nat.pow_le_pow_right (by decide) short
    _ = 2 ^ 32 := by decide

@[simp] theorem toNatLittleEndian_zeros (count : Nat) : toNatLittleEndian (zeros count) = 0 := by
  induction count with
  | zero => rfl
  | succ count ih =>
    rw [zeros, List.replicate_succ, toNatLittleEndian, ← zeros, ih]
    rfl

/-- Zeros above the most significant byte do not count. -/
theorem toNatLittleEndian_append_zeros (bytes : Bytes) (count : Nat) :
    toNatLittleEndian (bytes ++ zeros count) = toNatLittleEndian bytes := by
  induction bytes with
  | nil => exact toNatLittleEndian_zeros count
  | cons byte bytes ih =>
    rw [List.cons_append, toNatLittleEndian, ih, toNatLittleEndian]

@[simp] theorem length_ofNatLittleEndian (count n : Nat) :
    (ofNatLittleEndian count n).length = count := by
  induction count generalizing n with
  | zero => rfl
  | succ count ih => simp [ofNatLittleEndian, ih]

/-- As many bytes as are written of a number are read back. -/
theorem toNatLittleEndian_ofNatLittleEndian (count n : Nat) :
    toNatLittleEndian (ofNatLittleEndian count n) = n % 256 ^ count := by
  induction count generalizing n with
  | zero => rw [Nat.pow_zero, Nat.mod_one]; rfl
  | succ count ih =>
    have more : 256 ^ (count + 1) = 256 * 256 ^ count := Nat.pow_succ'
    rw [ofNatLittleEndian, toNatLittleEndian, ih, UInt8.toNat_ofNat', more]
    exact Nat.mod_mul.symm

/-- The four bytes of a word are those of its number. -/
theorem ofNatLittleEndian_toNat (word : UInt32) :
    ofNatLittleEndian 4 word.toNat = Word.toLittleEndian word := by
  simp only [ofNatLittleEndian, Word.toLittleEndian, Nat.div_div_eq_div_mul]

/-- A word is read back from its four bytes. -/
theorem toNatLittleEndian_toLittleEndian (word : UInt32) :
    toNatLittleEndian (Word.toLittleEndian word) = word.toNat := by
  rw [← ofNatLittleEndian_toNat, toNatLittleEndian_ofNatLittleEndian]
  exact Nat.mod_eq_of_lt word.toNat_lt

@[simp] theorem length_ofNatBigEndian (count n : Nat) :
    (ofNatBigEndian count n).length = count := by
  simp [ofNatBigEndian]

end Bytes

end SealedEnvelope
