import SealedEnvelope.Error
import SealedEnvelope.RandomSource

/-!
# Padding (SPEC_FULL §4.1)

A padded body is the body followed by `P` copies of the byte `P`.  The number is drawn at random, so
that the length of a box says little about the length of the body, and a short body always reaches
the least length.
-/

set_option autoImplicit false

namespace SealedEnvelope

namespace Padding

/-- The least length of a padded body. -/
def leastTotal : Nat := 32

/-- The greatest number of bytes appended; a byte can hold it. -/
def most : Nat := 255

/-- The least number of bytes appended to a body of `length` bytes. -/
def least (length : Nat) : Nat := max (leastTotal - length) 1

/-- The body followed by `count` copies of the byte `count`. -/
def append (body : Bytes) (count : Nat) : Bytes := body ++ List.replicate count (UInt8.ofNat count)

/-- The body with a random number of bytes appended. -/
def pad (body : Bytes) (source : RandomSource) : Bytes × RandomSource :=
  let (count, source) := source.drawBetween (least body.length) most
  (append body count, source)

/-- The body of a padded body.  A last byte of zero says that nothing was appended. -/
def unpad (padded : Bytes) : Except Error Bytes :=
  match padded.getLast? with
  | none => .error (.malformed .padding .emptyBuffer)
  | some last =>
    if padded.length < last.toNat then
      .error (.malformed .padding (.paddingTooLong last.toNat padded.length))
    else .ok (padded.take (padded.length - last.toNat))

/-- A byte holds every number of bytes that is appended. -/
theorem toNat_ofNat_of_le_most {count : Nat} (le : count ≤ most) :
    (UInt8.ofNat count).toNat = count := by
  rw [UInt8.toNat_ofNat']
  exact Nat.mod_eq_of_lt (Nat.lt_succ_of_le le)

theorem unpad_append (body : Bytes) {count : Nat} (pos : 0 < count) (le : count ≤ most) :
    unpad (append body count) = .ok body := by
  have last : (append body count).getLast? = some (UInt8.ofNat count) := by
    rw [append, List.getLast?_append, List.getLast?_replicate, if_neg (by omega)]
    rfl
  rw [unpad, last]
  simp only [toNat_ofNat_of_le_most le]
  simp [append]

theorem least_le_most (length : Nat) : least length ≤ most := by
  unfold least leastTotal most
  omega

/-- A body is padded with a number of bytes that its last byte can hold. -/
theorem pad_eq_append (body : Bytes) (source : RandomSource) :
    ∃ count, least body.length ≤ count ∧ count ≤ most
      ∧ (pad body source).1 = append body count := by
  obtain ⟨low, high⟩ := RandomSource.drawBetween_bounds (least_le_most body.length) source
  exact ⟨_, low, high, rfl⟩

theorem unpad_pad (body : Bytes) (source : RandomSource) :
    unpad (pad body source).1 = .ok body := by
  obtain ⟨count, low, high, eq⟩ := pad_eq_append body source
  have pos : 0 < count := Nat.lt_of_lt_of_le (Nat.le_max_right _ 1) low
  rw [eq]
  exact unpad_append body pos high

/-! ## Unpadding any bytes -/

/-- Bytes are unpadded exactly if there are at least as many as the last one tells. -/
theorem unpad_eq_ok {padded body : Bytes} :
    unpad padded = .ok body
      ↔ ∃ last, padded.getLast? = some last ∧ last.toNat ≤ padded.length
        ∧ padded.take (padded.length - last.toNat) = body := by
  unfold unpad
  cases padded.getLast? with
  | none => simp
  | some last =>
    simp only [Option.some.injEq, exists_eq_left']
    by_cases short : padded.length < last.toNat
    · simp only [if_pos short, reduceCtorEq, false_iff]
      omega
    · simp only [if_neg short, Except.ok.injEq, Nat.not_lt.1 short, true_and]

/-- What is unpadded is a body and a tail of as many bytes as the last byte of all tells. -/
theorem exists_tail_of_unpad {padded body : Bytes} (h : unpad padded = .ok body) :
    ∃ tail last, padded = body ++ tail ∧ padded.getLast? = some last
      ∧ last.toNat = tail.length := by
  obtain ⟨last, isLast, le, rfl⟩ := unpad_eq_ok.1 h
  refine ⟨padded.drop (padded.length - last.toNat), last, ?_, isLast, ?_⟩
  · rw [List.take_append_drop]
  · rw [List.length_drop]
    omega

/-! ## Lengths -/

@[simp] theorem length_append (body : Bytes) (count : Nat) :
    (append body count).length = body.length + count := by
  rw [append, List.length_append, List.length_replicate]

theorem length_append_le {body : Bytes} {count : Nat} (high : count ≤ most) :
    (append body count).length ≤ body.length + most := by
  rw [length_append]
  exact Nat.add_le_add_left high body.length

/-- A padded body is longer by the number that is drawn. -/
theorem length_pad (body : Bytes) (source : RandomSource) :
    (pad body source).1.length
      = body.length + (source.drawBetween (least body.length) most).1 :=
  length_append body _

theorem length_pad_le (body : Bytes) (source : RandomSource) :
    (pad body source).1.length ≤ body.length + most := by
  obtain ⟨count, _, high, padded⟩ := pad_eq_append body source
  rw [padded]
  exact length_append_le high

end Padding

end SealedEnvelope
