import SealedEnvelope.Bytes.Endian
import SealedEnvelope.Octets

/-!
# Random sources (SPEC_FULL §5)

A source is the bytes it still has to give; when they have run out it gives zeros.  What a draw
gives and what it takes depend on finitely many bytes only, so every source that a draw ends on
looks like one of these to that draw.
-/

set_option autoImplicit false

namespace SealedEnvelope

/-- A source of random bytes. -/
structure RandomSource where
  supply : Bytes
  deriving DecidableEq, Repr, Inhabited

namespace RandomSource

/-! ## Bytes -/

/-- The next `count` bytes. -/
def draw (count : Nat) (source : RandomSource) : Bytes × RandomSource :=
  (source.supply.take count ++ Bytes.zeros (count - source.supply.length),
    ⟨source.supply.drop count⟩)

@[simp] theorem length_draw (count : Nat) (source : RandomSource) :
    (source.draw count).1.length = count := by
  simp only [draw, List.length_append, List.length_take, Bytes.length_zeros]
  omega

/-- A key or a nonce of the next bytes. -/
def drawOctets (role : Role) (source : RandomSource) : Octets role × RandomSource :=
  (⟨(source.draw role.size).1, length_draw role.size source⟩, (source.draw role.size).2)

/-! ## Numbers below a limit -/

/-- The greatest low half of a product for which a word counts.  So many words are left out that
each number below `range` is met by equally many of the others. -/
def zone (range : Nat) : Nat := 2 ^ 32 - 1 - 2 ^ 32 % range

/-- Whether a word of thirty-two bits counts. -/
def accepts (range word : Nat) : Bool := word * range % 2 ^ 32 ≤ zone range

/-- The number below `range` that a word stands for: the high half of a product. -/
def pick (range word : Nat) : Nat := word * range / 2 ^ 32

/-- The number that the first word that counts stands for, and the supply after it.  At the end of
the supply zeros complete its last word, and the word of zeros after it counts. -/
def pickFrom (range : Nat) : Bytes → Nat × Bytes
  | a :: b :: c :: d :: rest =>
    let word := Bytes.toNatLittleEndian [a, b, c, d]
    if accepts range word then (pick range word, rest) else pickFrom range rest
  | short =>
    let word := Bytes.toNatLittleEndian short
    if accepts range word then (pick range word, []) else (0, [])

/-- A number between `low` and `high`, all of them equally likely. -/
def drawBetween (low high : Nat) (source : RandomSource) : Nat × RandomSource :=
  let (offset, supply) := pickFrom (high + 1 - low) source.supply
  (low + offset, ⟨supply⟩)

/-! ## Bounds -/

theorem pick_lt {range word : Nat} (pos : 0 < range) (small : word < 2 ^ 32) :
    pick range word < range := by
  rw [pick, Nat.div_lt_iff_lt_mul (by decide), Nat.mul_comm range]
  exact Nat.mul_lt_mul_of_pos_right small pos

/-- What is drawn from the end of the supply. -/
theorem pickFrom_short_lt {range : Nat} (pos : 0 < range) {short : Bytes} (le : short.length ≤ 4)
    (last : pickFrom range short =
      if accepts range (Bytes.toNatLittleEndian short)
        then (pick range (Bytes.toNatLittleEndian short), []) else (0, [])) :
    (pickFrom range short).1 < range := by
  rw [last]
  split
  · exact pick_lt pos (Bytes.toNatLittleEndian_lt_word le)
  · exact pos

/-- What is drawn is below the limit, whichever words are passed over before. -/
theorem pickFrom_lt {range : Nat} (pos : 0 < range) :
    ∀ supply : Bytes, (pickFrom range supply).1 < range
  | a :: b :: c :: d :: rest => by
    rw [pickFrom]
    split
    · exact pick_lt pos (Bytes.toNatLittleEndian_lt_word (Nat.le_refl 4))
    · exact pickFrom_lt pos rest
  | [] => pickFrom_short_lt pos (by simp) rfl
  | [_] => pickFrom_short_lt pos (by simp) rfl
  | [_, _] => pickFrom_short_lt pos (by simp) rfl
  | [_, _, _] => pickFrom_short_lt pos (by simp) rfl

/-- What is drawn between two numbers lies between them. -/
theorem drawBetween_bounds {low high : Nat} (le : low ≤ high) (source : RandomSource) :
    low ≤ (source.drawBetween low high).1 ∧ (source.drawBetween low high).1 ≤ high := by
  have some : 0 < high + 1 - low := by omega
  have below := pickFrom_lt some source.supply
  unfold drawBetween
  simp only
  omega

/-! ## Words passed over -/

/-- One word of a supply: either it counts and is taken, or the draw goes on after it. -/
theorem pickFrom_word (range : Nat) (word : UInt32) (rest : Bytes) :
    pickFrom range (Word.toLittleEndian word ++ rest) =
      if accepts range word.toNat then (pick range word.toNat, rest) else pickFrom range rest := by
  have value := Bytes.toNatLittleEndian_toLittleEndian word
  simp only [Word.toLittleEndian] at value
  simp only [Word.toLittleEndian, List.cons_append, List.nil_append, pickFrom, value]

/-- A draw passes over the words that do not count, takes the first one that does and leaves all
that follows it. -/
theorem pickFrom_of_passed {range : Nat} {passed : List UInt32} {word : UInt32}
    (skip : ∀ other ∈ passed, accepts range other.toNat = false)
    (counts : accepts range word.toNat = true) (rest : Bytes) :
    pickFrom range (passed.flatMap Word.toLittleEndian ++ (Word.toLittleEndian word ++ rest))
      = (pick range word.toNat, rest) := by
  induction passed with
  | nil => rw [List.flatMap_nil, List.nil_append, pickFrom_word, if_pos counts]
  | cons other passed ih =>
    obtain ⟨now, later⟩ := List.forall_mem_cons.1 skip
    rw [List.flatMap_cons, List.append_assoc, pickFrom_word, now, if_neg Bool.false_ne_true]
    exact ih later

theorem drawBetween_of_passed {low high : Nat} {passed : List UInt32} {word : UInt32}
    (skip : ∀ other ∈ passed, accepts (high + 1 - low) other.toNat = false)
    (counts : accepts (high + 1 - low) word.toNat = true) (rest : Bytes) :
    drawBetween low high
        ⟨passed.flatMap Word.toLittleEndian ++ (Word.toLittleEndian word ++ rest)⟩
      = (low + pick (high + 1 - low) word.toNat, ⟨rest⟩) := by
  simp only [drawBetween, pickFrom_of_passed skip counts rest]

/-! ## Reaching every number -/

/-- Every number below a limit is the number of some word that counts: of the first word whose
product reaches it. -/
theorem exists_word {range offset : Nat} (lt : offset < range) (small : range ≤ 2 ^ 31) :
    ∃ word, word < 2 ^ 32 ∧ accepts range word = true ∧ pick range word = offset := by
  obtain ⟨word, rest, below, product⟩ :
      ∃ word rest, rest < range ∧ word * range = offset * 2 ^ 32 + rest := by
    have pos : 0 < range := Nat.zero_lt_of_lt lt
    refine ⟨(offset * 2 ^ 32 + (range - 1)) / range,
      range - 1 - (offset * 2 ^ 32 + (range - 1)) % range, by omega, ?_⟩
    have division := Nat.div_add_mod' (offset * 2 ^ 32 + (range - 1)) range
    have := Nat.mod_lt (offset * 2 ^ 32 + (range - 1)) pos
    omega
  have low : word * range % 2 ^ 32 = rest := by
    rw [product, Nat.mul_add_mod_self_right, Nat.mod_eq_of_lt (by omega)]
  have high : word * range / 2 ^ 32 = offset := by
    rw [product]
    omega
  have counts : rest ≤ zone range := by
    have := Nat.mod_lt (2 ^ 32) (Nat.zero_lt_of_lt lt)
    unfold zone
    omega
  refine ⟨word, ?_, ?_, high⟩
  · have above : offset + 1 ≤ range := lt
    have bound : (offset + 1) * 2 ^ 32 ≤ 2 ^ 32 * range := by
      rw [Nat.mul_comm (2 ^ 32)]
      exact Nat.mul_le_mul_right _ above
    apply Nat.lt_of_mul_lt_mul_right (a := range)
    omega
  · rw [accepts, low]
    exact decide_eq_true counts

/-- Every number between two others is drawn from some source. -/
theorem exists_drawBetween_eq {low high n : Nat} (ge : low ≤ n) (le : n ≤ high)
    (small : high + 1 - low ≤ 2 ^ 31) :
    ∃ source : RandomSource, (source.drawBetween low high).1 = n := by
  obtain ⟨word, bound, counts, number⟩ :=
    exists_word (show n - low < high + 1 - low by omega) small
  refine ⟨⟨Bytes.ofNatLittleEndian 4 word⟩, ?_⟩
  have back : Bytes.toNatLittleEndian (Bytes.ofNatLittleEndian 4 word) = word := by
    rw [Bytes.toNatLittleEndian_ofNatLittleEndian, Nat.mod_eq_of_lt bound]
  have drawn : pickFrom (high + 1 - low) (Bytes.ofNatLittleEndian 4 word) = (n - low, []) := by
    simp only [Bytes.ofNatLittleEndian] at back
    simp only [Bytes.ofNatLittleEndian, pickFrom, back, counts, number, if_true]
  simp only [drawBetween, drawn]
  omega

end RandomSource

end SealedEnvelope
