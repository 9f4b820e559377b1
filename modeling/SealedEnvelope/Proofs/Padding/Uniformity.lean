import Mathlib.Data.Set.Card
import Mathlib.Order.Interval.Finset.Nat
import SealedEnvelope.Proofs.Padding.RoundTrip

/-!
# How the padding is drawn (SPEC_FULL §4.1)

The number of bytes that are appended is drawn without bias: equally many words of a source stand
for each admissible number, and no word that counts stands for any other.  The loop that passes over
the words that do not count ends, because a supply that has run out gives a word that counts.
-/

set_option autoImplicit false

namespace SealedEnvelope

namespace RandomSource

/-! ## The words of a number -/

/-- The low halves that count make up equal shares for the numbers below the limit. -/
theorem zone_add_one {range : Nat} (pos : 0 < range) (small : range ≤ 2 ^ 32) :
    zone range + 1 = range * (2 ^ 32 / range) := by
  have division := Nat.div_add_mod (2 ^ 32) range
  have rest := Nat.mod_lt (2 ^ 32) pos
  unfold zone
  omega

/-- The first word whose product with the limit reaches the high half `offset`. -/
def firstWord (range offset : Nat) : Nat := (offset * 2 ^ 32 + (range - 1)) / range

theorem firstWord_le_iff {range offset word : Nat} (pos : 0 < range) :
    firstWord range offset ≤ word ↔ offset * 2 ^ 32 ≤ word * range := by
  rw [firstWord, Nat.div_le_iff_le_mul_add_pred pos, Nat.mul_comm range]
  omega

/-- The words that stand for a number follow one another, and they are as many for each. -/
theorem accepts_and_pick_iff {range offset word : Nat} (pos : 0 < range) (small : range ≤ 2 ^ 32) :
    accepts range word = true ∧ pick range word = offset
      ↔ firstWord range offset ≤ word ∧ word < firstWord range offset + 2 ^ 32 / range := by
  have share := zone_add_one pos small
  have halves : accepts range word = true ∧ pick range word = offset
      ↔ offset * 2 ^ 32 ≤ word * range
        ∧ word * range < offset * 2 ^ 32 + range * (2 ^ 32 / range) := by
    have within : zone range < 2 ^ 32 := by
      unfold zone
      omega
    rw [← share, accepts, decide_eq_true_iff, pick]
    omega
  have above : word * range < offset * 2 ^ 32 + range * (2 ^ 32 / range)
      ↔ word < firstWord range offset + 2 ^ 32 / range := by
    have next : firstWord range offset + 2 ^ 32 / range ≤ word
        ↔ offset * 2 ^ 32 + range * (2 ^ 32 / range) ≤ word * range := by
      rw [firstWord, ← Nat.add_mul_div_left _ _ pos, Nat.div_le_iff_le_mul_add_pred pos,
        Nat.mul_comm range word]
      omega
    rw [← Nat.not_le, ← Nat.not_le, next]
  rw [halves, above, firstWord_le_iff pos]

/-- The words that count and stand for a given number. -/
def wordsOf (range offset : Nat) : Set UInt32 :=
  {word | accepts range word.toNat = true ∧ pick range word.toNat = offset}

/-- Every number below the limit has the same share of the words. -/
theorem ncard_wordsOf {range offset : Nat} (lt : offset < range) (small : range ≤ 2 ^ 32) :
    (wordsOf range offset).ncard = 2 ^ 32 / range := by
  have pos : 0 < range := Nat.zero_lt_of_lt lt
  have numbers : UInt32.toNat '' wordsOf range offset
      = Set.Ico (firstWord range offset) (firstWord range offset + 2 ^ 32 / range) := by
    ext number
    constructor
    · rintro ⟨word, mem, rfl⟩
      exact (accepts_and_pick_iff pos small).1 mem
    · intro mem
      have counts := (accepts_and_pick_iff pos small).2 mem
      have high : pick range number < range := counts.2 ▸ lt
      have below : number < 2 ^ 32 := by
        rw [pick, Nat.div_lt_iff_lt_mul (Nat.two_pow_pos 32), Nat.mul_comm range] at high
        exact Nat.lt_of_mul_lt_mul_right high
      have word : (UInt32.ofNat number).toNat = number := by
        rw [UInt32.toNat_ofNat']
        exact Nat.mod_eq_of_lt below
      refine ⟨UInt32.ofNat number, ?_, word⟩
      change accepts range (UInt32.ofNat number).toNat = true
        ∧ pick range (UInt32.ofNat number).toNat = offset
      rw [word]
      exact counts
  have injective : Function.Injective UInt32.toNat := fun _ _ => UInt32.toNat_inj.1
  rw [← Set.ncard_image_of_injective _ injective, numbers, ← Finset.coe_Ico, Set.ncard_coe_finset,
    Nat.card_Ico, Nat.add_sub_cancel_left]

instance : Finite UInt32 := Finite.of_injective UInt32.toFin fun _ _ => UInt32.toFin_inj.1

/-- The shares of the numbers below `limit` together. -/
theorem ncard_words_lt {range limit : Nat} (le : limit ≤ range) (small : range ≤ 2 ^ 32) :
    {word : UInt32 | accepts range word.toNat = true ∧ pick range word.toNat < limit}.ncard
      = limit * (2 ^ 32 / range) := by
  induction limit with
  | zero => simp
  | succ limit ih =>
    have split : {word : UInt32 |
          accepts range word.toNat = true ∧ pick range word.toNat < limit + 1}
        = {word | accepts range word.toNat = true ∧ pick range word.toNat < limit}
          ∪ wordsOf range limit := by
      ext word
      change accepts range word.toNat = true ∧ pick range word.toNat < limit + 1
        ↔ (accepts range word.toNat = true ∧ pick range word.toNat < limit)
          ∨ accepts range word.toNat = true ∧ pick range word.toNat = limit
      rw [← and_or_left, Nat.lt_succ_iff_lt_or_eq]
    have apart : Disjoint
        {word : UInt32 | accepts range word.toNat = true ∧ pick range word.toNat < limit}
        (wordsOf range limit) := by
      refine Set.disjoint_left.2 fun word below here => ?_
      exact absurd here.2 (Nat.ne_of_lt below.2)
    rw [split, Set.ncard_union_eq apart, ih (Nat.le_of_succ_le le), ncard_wordsOf le small,
      Nat.succ_mul]

/-! ## The loop -/

/-- The number of the next four bytes of a source, the least significant one first. -/
def drawWord (source : RandomSource) : Nat × RandomSource :=
  (Bytes.toNatLittleEndian (source.draw 4).1, (source.draw 4).2)

/-- A run of the loop from a source: how many words it draws, the number that the last one stands
for, and the source that is left. -/
inductive Run (range : Nat) : RandomSource → Nat → Nat → RandomSource → Prop
  | taken {source : RandomSource} (counts : accepts range source.drawWord.1 = true) :
      Run range source 1 (pick range source.drawWord.1) source.drawWord.2
  | passed {source rest : RandomSource} {words offset : Nat}
      (skip : accepts range source.drawWord.1 = false)
      (later : Run range source.drawWord.2 words offset rest) :
      Run range source (words + 1) offset rest

/-- The loop runs in one way only. -/
theorem Run.unique {range words words' offset offset' : Nat} {source rest rest' : RandomSource}
    (left : Run range source words offset rest) (right : Run range source words' offset' rest') :
    words = words' ∧ offset = offset' ∧ rest = rest' := by
  induction left generalizing words' with
  | taken counts =>
    cases right with
    | taken => exact ⟨rfl, rfl, rfl⟩
    | passed skip => exact absurd (counts.symm.trans skip) (by decide)
  | passed skip _ ih =>
    cases right with
    | taken counts => exact absurd (counts.symm.trans skip) (by decide)
    | passed _ later =>
      obtain ⟨rfl, rfl, rfl⟩ := ih later
      exact ⟨rfl, rfl, rfl⟩

theorem drawWord_cons (a b c d : UInt8) (rest : Bytes) :
    drawWord ⟨a :: b :: c :: d :: rest⟩ = (Bytes.toNatLittleEndian [a, b, c, d], ⟨rest⟩) := by
  simp [drawWord, draw, Bytes.zeros]

/-- The last bytes of a supply are completed by zeros. -/
theorem drawWord_short {short : Bytes} (few : short.length ≤ 4) :
    drawWord ⟨short⟩ = (Bytes.toNatLittleEndian short, ⟨[]⟩) := by
  rw [drawWord, draw, List.take_of_length_le few, List.drop_eq_nil_of_le few,
    Bytes.toNatLittleEndian_append_zeros]

/-- The word of zeros counts, and it stands for zero. -/
theorem run_nil (range : Nat) : Run range ⟨[]⟩ 1 0 ⟨[]⟩ := by
  have zero : drawWord ⟨[]⟩ = (0, ⟨[]⟩) := drawWord_short (Nat.zero_le 4)
  have counts : accepts range (drawWord ⟨[]⟩).1 = true := by
    rw [zero, accepts, Nat.zero_mul, Nat.zero_mod]
    exact decide_eq_true (Nat.zero_le _)
  have run := Run.taken counts
  rwa [zero, pick, Nat.zero_mul, Nat.zero_div] at run

/-- The end of a supply, and at most the word of zeros after it. -/
theorem run_short {range : Nat} {short : Bytes} (few : short.length ≤ 4)
    (last : pickFrom range short =
      if accepts range (Bytes.toNatLittleEndian short)
        then (pick range (Bytes.toNatLittleEndian short), []) else (0, [])) :
    ∃ words ≤ short.length / 4 + 2,
      Run range ⟨short⟩ words (pickFrom range short).1 ⟨(pickFrom range short).2⟩ := by
  have word := drawWord_short few
  rw [last]
  cases counts : accepts range (Bytes.toNatLittleEndian short) with
  | true =>
    have taken : accepts range (drawWord ⟨short⟩).1 = true := by
      rw [word]
      exact counts
    have run := Run.taken taken
    rw [word] at run
    exact ⟨1, by omega, run⟩
  | false =>
    refine ⟨2, by omega, Run.passed (by rw [word]; exact counts) ?_⟩
    rw [word]
    exact run_nil range

/-- The loop ends: of a supply of `k` bytes it draws no more than `k / 4 + 2` words. -/
theorem exists_run (range : Nat) :
    ∀ supply : Bytes, ∃ words ≤ supply.length / 4 + 2,
      Run range ⟨supply⟩ words (pickFrom range supply).1 ⟨(pickFrom range supply).2⟩
  | a :: b :: c :: d :: rest => by
    have word := drawWord_cons a b c d rest
    rw [pickFrom]
    cases counts : accepts range (Bytes.toNatLittleEndian [a, b, c, d]) with
    | true =>
      have taken : accepts range (drawWord ⟨a :: b :: c :: d :: rest⟩).1 = true := by
        rw [word]
        exact counts
      have run := Run.taken taken
      rw [word] at run
      exact ⟨1, by omega, run⟩
    | false =>
      obtain ⟨words, few, later⟩ := exists_run range rest
      refine ⟨words + 1, ?_, Run.passed (by rw [word]; exact counts) ?_⟩
      · simp only [List.length_cons]
        omega
      · rw [word]
        exact later
  | [] => run_short (by simp) rfl
  | [_] => run_short (by simp) rfl
  | [_, _] => run_short (by simp) rfl
  | [_, _, _] => run_short (by simp) rfl

end RandomSource

namespace Padding

open RandomSource (Run accepts pick)

/-! ## Padded bodies -/

variable {body : Bytes} {word : UInt32}

/-- That a word tells how much is appended to a body: so many bytes are appended, and the draw takes
the word and leaves all that follows it. -/
def Tells (body : Bytes) (word : UInt32) (count : Nat) : Prop :=
  ∀ rest : Bytes, pad body ⟨Word.toLittleEndian word ++ rest⟩
    = (body ++ List.replicate count (UInt8.ofNat count), ⟨rest⟩)

/-- A word that counts tells the least number and the one that it stands for. -/
theorem pad_of_counted (counts : accepts (most + 1 - least body.length) word.toNat = true)
    (rest : Bytes) :
    pad body ⟨Word.toLittleEndian word ++ rest⟩
      = (append body (least body.length + pick (most + 1 - least body.length) word.toNat),
        ⟨rest⟩) :=
  pad_of_passed (List.forall_mem_nil _) counts rest

/-- A word that does not count is without effect. -/
theorem pad_of_skipped (skip : accepts (most + 1 - least body.length) word.toNat = false)
    (rest : Bytes) :
    pad body ⟨Word.toLittleEndian word ++ rest⟩ = pad body ⟨rest⟩ := by
  simp only [pad, RandomSource.drawBetween, RandomSource.pickFrom_word, skip,
    Bool.false_eq_true, if_false]

/-- Nothing is left of a supply of a single byte. -/
theorem supply_of_pad_single (body : Bytes) (byte : UInt8) : (pad body ⟨[byte]⟩).2.supply = [] := by
  simp only [pad, RandomSource.drawBetween, RandomSource.pickFrom]
  split
  · rfl
  · rfl

theorem append_left_inj {count count' : Nat} (h : append body count = append body count') :
    count = count' := by
  have lengths := congrArg List.length h
  rw [length_append, length_append] at lengths
  exact Nat.add_left_cancel lengths

/-- The words that tell a number are those that count and stand for it. -/
theorem tells_iff {count : Nat} :
    Tells body word count
      ↔ accepts (most + 1 - least body.length) word.toNat = true
        ∧ least body.length + pick (most + 1 - least body.length) word.toNat = count := by
  constructor
  · intro tells
    have told := tells [0]
    cases counts : accepts (most + 1 - least body.length) word.toNat with
    | true =>
      rw [pad_of_counted counts] at told
      exact ⟨rfl, append_left_inj (Prod.ext_iff.1 told).1⟩
    | false =>
      -- a draw that goes on after the word does not leave the byte that follows it
      rw [pad_of_skipped counts] at told
      have left := supply_of_pad_single body 0
      rw [told] at left
      contradiction
  · rintro ⟨counts, rfl⟩ rest
    exact pad_of_counted counts rest

/-- The words that tell a number are as many for each admissible one. -/
theorem ncard_tells {count : Nat} (low : least body.length ≤ count) (high : count ≤ most) :
    {word : UInt32 | Tells body word count}.ncard = 2 ^ 32 / (most + 1 - least body.length) := by
  have offset : count - least body.length < most + 1 - least body.length := by omega
  have small : most + 1 - least body.length ≤ 2 ^ 32 := Nat.le_trans (Nat.sub_le _ _) (by decide)
  have words : {word : UInt32 | Tells body word count}
      = RandomSource.wordsOf (most + 1 - least body.length) (count - least body.length) := by
    ext word
    change Tells body word count ↔ accepts (most + 1 - least body.length) word.toNat = true
      ∧ pick (most + 1 - least body.length) word.toNat = count - least body.length
    rw [tells_iff]
    refine and_congr_right fun _ => ?_
    omega
  rw [words, RandomSource.ncard_wordsOf offset small]

/-- A word tells some number exactly if it counts. -/
theorem exists_tells_iff :
    (∃ count, Tells body word count)
      ↔ accepts (most + 1 - least body.length) word.toNat = true := by
  constructor
  · rintro ⟨count, tells⟩
    exact (tells_iff.1 tells).1
  · intro counts
    exact ⟨_, tells_iff.2 ⟨counts, rfl⟩⟩

theorem ncard_exists_tells (body : Bytes) :
    {word : UInt32 | ∃ count, Tells body word count}.ncard
      = (most + 1 - least body.length) * (2 ^ 32 / (most + 1 - least body.length)) := by
  have some : 0 < most + 1 - least body.length :=
    Nat.sub_pos_of_lt (Nat.lt_succ_of_le (least_le_most _))
  have small : most + 1 - least body.length ≤ 2 ^ 32 := Nat.le_trans (Nat.sub_le _ _) (by decide)
  rw [← RandomSource.ncard_words_lt (Nat.le_refl _) small]
  congr 1
  ext word
  change (∃ count, Tells body word count)
    ↔ accepts (most + 1 - least body.length) word.toNat = true
      ∧ pick (most + 1 - least body.length) word.toNat < most + 1 - least body.length
  rw [exists_tells_iff, and_iff_left (RandomSource.pick_lt some word.toNat_lt)]

/-- A run of the loop tells how much is appended, and after it the source is as the draw leaves
it. -/
theorem pad_of_run (body : Bytes) (source : RandomSource) :
    ∃ words ≤ source.supply.length / 4 + 2, ∃ offset rest,
      Run (most + 1 - least body.length) source words offset rest
        ∧ pad body source = (append body (least body.length + offset), rest) := by
  obtain ⟨words, few, run⟩ := RandomSource.exists_run (most + 1 - least body.length) source.supply
  exact ⟨words, few, _, _, run, rfl⟩

/-- Every number of bytes that may be appended is told by equally many of the words of thirty-two
bits, and no other number is told: of the words that count each number has the same share.  Any
other word is passed over.  The loop that does so ends: of a supply of `k` bytes with zeros after
them it draws no more than `k / 4 + 2` words, and what it ends with is what is appended. -/
theorem pad_uniform (body : Bytes) :
    let low := max 1 (32 - body.length)
    let range := 256 - low
    (∀ count, low ≤ count → count ≤ 255 →
      {word : UInt32 | Tells body word count}.ncard = 2 ^ 32 / range)
    ∧ {word : UInt32 | ∃ count, Tells body word count}.ncard = range * (2 ^ 32 / range)
    ∧ (∀ word count, Tells body word count → low ≤ count ∧ count ≤ 255)
    ∧ (∀ word, (¬ ∃ count, Tells body word count) → ∀ rest : Bytes,
      pad body ⟨Word.toLittleEndian word ++ rest⟩ = pad body ⟨rest⟩)
    ∧ ∀ source : RandomSource,
      (∃ words offset rest, Run range source words offset rest)
      ∧ ∀ words offset rest, Run range source words offset rest →
        words ≤ source.supply.length / 4 + 2
        ∧ pad body source
          = (body ++ List.replicate (low + offset) (UInt8.ofNat (low + offset)), rest) := by
  have leastEq : max 1 (32 - body.length) = least body.length := Nat.max_comm _ _
  have mostEq : 256 - max 1 (32 - body.length) = most + 1 - least body.length :=
    congrArg (256 - ·) leastEq
  intro low range
  rw [show low = least body.length from leastEq, show range = _ from mostEq]
  refine ⟨fun count ge le => ncard_tells ge le, ncard_exists_tells body, ?_, ?_, ?_⟩
  · intro word count tells
    obtain ⟨_, rfl⟩ := tells_iff.1 tells
    exact ⟨Nat.le_add_right _ _, least_add_pick_le word.toNat_lt⟩
  · intro word none
    rw [exists_tells_iff, Bool.not_eq_true] at none
    exact pad_of_skipped none
  · intro source
    obtain ⟨words, few, offset, rest, run, padded⟩ := pad_of_run body source
    refine ⟨⟨words, offset, rest, run⟩, fun words' offset' rest' run' => ?_⟩
    obtain ⟨rfl, rfl, rfl⟩ := run.unique run'
    exact ⟨few, padded⟩

/-- A body of the least total, for which one word of all does not count: the first of a supply that
breaks off inside its second one. -/
theorem pad_uniform_broken_supply :
    let body : Bytes := List.replicate 32 0x61
    {word : UInt32 | Tells body word 1}.ncard = 16843009
      ∧ {word : UInt32 | Tells body word 255}.ncard = 16843009
      ∧ (¬ ∃ count, Tells body 0x01010101 count)
      ∧ pad body ⟨[1, 1, 1, 1, 0, 0, 2]⟩ = pad body ⟨[0, 0, 2]⟩
      ∧ ∃ words ≤ 3, ∃ offset rest,
        Run 255 ⟨[1, 1, 1, 1, 0, 0, 2]⟩ words offset rest
          ∧ pad body ⟨[1, 1, 1, 1, 0, 0, 2]⟩
            = (body ++ List.replicate (1 + offset) (UInt8.ofNat (1 + offset)), rest) := by
  intro body
  obtain ⟨shares, _, _, passedOver, loop⟩ := pad_uniform body
  have skip : ¬ ∃ count, Tells body 0x01010101 count := by
    rw [exists_tells_iff]
    decide +kernel
  obtain ⟨⟨words, offset, rest, run⟩, ends⟩ := loop ⟨[1, 1, 1, 1, 0, 0, 2]⟩
  obtain ⟨few, padded⟩ := ends words offset rest run
  have share : 2 ^ 32 / (256 - max 1 (32 - body.length)) = 16843009 := by decide
  exact ⟨(shares 1 (by decide) (by decide)).trans share,
    (shares 255 (by decide) (by decide)).trans share, skip,
    passedOver _ skip [0, 0, 2], words, few, offset, rest, run, padded⟩

end Padding

end SealedEnvelope
