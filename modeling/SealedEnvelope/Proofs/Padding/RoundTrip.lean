import SealedEnvelope.Padding

/-!
# Padding and unpadding (SPEC_FULL §4.1, §12)

What a padded body looks like, whatever the source and the body are: the number that is appended,
the bytes that hold it, the length that comes of it.  A padded body is unpadded to the body, and any
other bytes are unpadded as their last byte says, if there are enough of them.
-/

set_option autoImplicit false

namespace SealedEnvelope

namespace Padding

/-! ## Numbers in a byte -/

/-- The numbers between which one is drawn for a body of any length are written to a byte as they
are. -/
theorem toNat_ofNat_least (length : Nat) : (UInt8.ofNat (least length)).toNat = least length :=
  toNat_ofNat_of_le_most (least_le_most length)

/-- The number that a word stands for is not above the greatest one. -/
theorem least_add_pick_le {length word : Nat} (small : word < 2 ^ 32) :
    least length + RandomSource.pick (most + 1 - least length) word ≤ most := by
  have low := least_le_most length
  have some : 0 < most + 1 - least length := by omega
  have below := RandomSource.pick_lt some small
  omega

/-! ## Padded bodies -/

/-- A short body reaches the least total, and any other gets at least one byte. -/
theorem max_le_length_append {body : Bytes} {count : Nat} (low : least body.length ≤ count) :
    max 32 (body.length + 1) ≤ (append body count).length := by
  unfold least leastTotal at low
  rw [length_append]
  omega

/-- A body padded from a supply is followed by the number that the first word that counts stands
for, and what follows that word is left. -/
theorem pad_of_passed {body : Bytes} {passed : List UInt32} {word : UInt32}
    (skip : ∀ other ∈ passed,
      RandomSource.accepts (most + 1 - least body.length) other.toNat = false)
    (counts : RandomSource.accepts (most + 1 - least body.length) word.toNat = true)
    (rest : Bytes) :
    pad body ⟨passed.flatMap Word.toLittleEndian ++ (Word.toLittleEndian word ++ rest)⟩
      = (append body
          (least body.length + RandomSource.pick (most + 1 - least body.length) word.toNat),
        ⟨rest⟩) := by
  simp only [pad, RandomSource.drawBetween_of_passed skip counts rest]

/-! ## Any bytes -/

/-- Bytes are unpadded exactly if the last one tells of no more than there are. -/
theorem exists_unpad_eq_ok {padded : Bytes} :
    (∃ body, unpad padded = .ok body)
      ↔ ∃ last, padded.getLast? = some last ∧ last.toNat ≤ padded.length := by
  constructor
  · rintro ⟨body, read⟩
    obtain ⟨last, isLast, enough, _⟩ := unpad_eq_ok.1 read
    exact ⟨last, isLast, enough⟩
  · rintro ⟨last, isLast, enough⟩
    exact ⟨_, unpad_eq_ok.2 ⟨last, isLast, enough, rfl⟩⟩

/-- What is unpadded is the beginning of the bytes, shorter by the last of them. -/
theorem prefix_of_unpad {padded body : Bytes} {last : UInt8} (isLast : padded.getLast? = some last)
    (read : unpad padded = .ok body) :
    body <+: padded ∧ body.length = padded.length - last.toNat := by
  obtain ⟨last', isLast', _, rfl⟩ := unpad_eq_ok.1 read
  obtain rfl : last = last' := Option.some.inj (isLast.symm.trans isLast')
  exact ⟨List.take_prefix _ _, List.length_take_of_le (Nat.sub_le _ _)⟩

/-- A padded body is the body and `count` copies of the byte `count`, for a number that is drawn
between two that a byte holds; the length is bounded accordingly, and the body is unpadded again.
The number is that of the first word of the source that counts, whatever stands before and after it.
Any bytes are unpadded exactly if there are at least as many as the last one tells, and then to all
but so many of them. -/
theorem unpad_pad_with_bounds (body : Bytes) :
    (∀ source : RandomSource, ∃ count, max 1 (32 - body.length) ≤ count ∧ count ≤ 255
        ∧ (pad body source).1 = body ++ List.replicate count (UInt8.ofNat count)
        ∧ (UInt8.ofNat count).toNat = count
        ∧ max 32 (body.length + 1) ≤ (pad body source).1.length
        ∧ (pad body source).1.length ≤ body.length + 255
        ∧ unpad (pad body source).1 = .ok body)
      ∧ (UInt8.ofNat (least body.length)).toNat = least body.length
      ∧ (UInt8.ofNat most).toNat = most
      ∧ (∀ (passed : List UInt32) (word : UInt32) (rest : Bytes),
        let range := most + 1 - least body.length
        let count := least body.length + RandomSource.pick range word.toNat
        (∀ other ∈ passed, RandomSource.accepts range other.toNat = false) →
        RandomSource.accepts range word.toNat = true →
        pad body ⟨passed.flatMap Word.toLittleEndian ++ (Word.toLittleEndian word ++ rest)⟩
            = (body ++ List.replicate count (UInt8.ofNat count), ⟨rest⟩)
          ∧ max 1 (32 - body.length) ≤ count ∧ count ≤ 255)
      ∧ ∀ padded : Bytes,
        ((∃ read, unpad padded = .ok read)
          ↔ ∃ last, padded.getLast? = some last ∧ last.toNat ≤ padded.length)
        ∧ ∀ last read, padded.getLast? = some last → unpad padded = .ok read →
          read <+: padded ∧ read.length = padded.length - last.toNat := by
  have leastEq : least body.length = max 1 (32 - body.length) := Nat.max_comm _ _
  refine ⟨fun source => ?_, toNat_ofNat_least body.length, rfl, ?_,
    fun padded => ⟨exists_unpad_eq_ok, fun last read => prefix_of_unpad⟩⟩
  · obtain ⟨count, low, high, padded⟩ := pad_eq_append body source
    have back := unpad_pad body source
    rw [padded] at back ⊢
    exact ⟨count, leastEq ▸ low, high, rfl, toNat_ofNat_of_le_most high,
      max_le_length_append low, length_append_le high, back⟩
  · intro passed word rest range count skip counts
    refine ⟨pad_of_passed skip counts rest, ?_, least_add_pick_le word.toNat_lt⟩
    exact leastEq ▸ Nat.le_add_right _ _

/-- A body that is as long as the least total, whose first word does not count. -/
theorem unpad_pad_with_bounds_long :
    let body : Bytes := List.replicate 32 0x61
    let supply : Bytes := [1, 1, 1, 1, 0, 0, 0, 2, 9]
    RandomSource.accepts (most + 1 - least body.length) 0x01010101 = false
      ∧ RandomSource.accepts (most + 1 - least body.length) 0x02000000 = true
      ∧ pad body ⟨supply⟩ = (body ++ [2, 2], ⟨[9]⟩)
      ∧ unpad (body ++ [2, 2]) = .ok body := by
  intro body supply
  obtain ⟨bounds, _, _, words, _⟩ := unpad_pad_with_bounds body
  have passedOver : RandomSource.accepts (most + 1 - least body.length) 0x01010101 = false := by
    decide +kernel
  have skip : ∀ other ∈ [(0x01010101 : UInt32)],
      RandomSource.accepts (most + 1 - least body.length) other.toNat = false :=
    List.forall_mem_singleton.2 passedOver
  have counts : RandomSource.accepts (most + 1 - least body.length)
      (0x02000000 : UInt32).toNat = true := by
    decide +kernel
  have given : supply = [0x01010101].flatMap Word.toLittleEndian
      ++ (Word.toLittleEndian 0x02000000 ++ [9]) := by
    decide +kernel
  have number : least body.length + RandomSource.pick (most + 1 - least body.length)
      (0x02000000 : UInt32).toNat = 2 := by
    decide +kernel
  have padded : pad body ⟨supply⟩ = (body ++ [2, 2], ⟨[9]⟩) := by
    rw [given, (words [0x01010101] 0x02000000 [9] skip counts).1, number]
    rfl
  obtain ⟨count, _, _, _, _, _, _, back⟩ := bounds ⟨supply⟩
  rw [padded] at back
  exact ⟨passedOver, counts, padded, back⟩

end Padding

end SealedEnvelope
