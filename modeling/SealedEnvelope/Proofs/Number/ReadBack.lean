import SealedEnvelope.Number.Shortest

/-!
# Numbers read back

Every number is read back from its decimal text: naturals, integers, and finite binary64 numbers to
the bit.  For the latter the search for the shortest text needs no analysis: a text is taken only if
it reads back, and the text with all digits, which is taken when no short one does, is exact.
-/

set_option autoImplicit false

namespace SealedEnvelope

namespace Decimal

/-! ## Digits -/

theorem isDigit_eq (c : Char) : isDigit c = c.isDigit := by
  simp only [isDigit, Char.isDigit, Char.le_def, ge_iff_le]

theorem bounds_of_isDigit {c : Char} (h : isDigit c = true) : 48 ≤ c.toNat ∧ c.toNat ≤ 57 := by
  simp only [isDigit, Bool.and_eq_true, decide_eq_true_eq, Char.le_def] at h
  exact h

theorem isDigit_of_mem_digits {n : Nat} {c : Char} (h : c ∈ digits n) : isDigit c = true := by
  rw [isDigit_eq]
  exact Nat.isDigit_of_mem_toDigits (by decide) (by decide) h

theorem digits_ne_nil (n : Nat) : digits n ≠ [] := Nat.toDigits_ne_nil

@[simp] theorem digits_zero : digits 0 = ['0'] := Nat.toDigits_zero 10

/-- Only the number zero is written with a zero in front. -/
theorem head?_digits_ne {n : Nat} (pos : 0 < n) : (digits n).head? ≠ some '0' := by
  induction n using Nat.base_induction 10 (by decide) with
  | single n small =>
    rw [digits, Nat.toDigits_of_lt_base small, List.head?_cons, ne_eq, Option.some.injEq,
      ← Char.toNat_inj, Nat.toNat_digitChar_of_lt_ten small]
    exact Nat.ne_of_gt (Nat.lt_add_of_pos_right pos)
  | digit n low small positive ih =>
    have step : digits (10 * n + low) = digits n ++ digits low :=
      (Nat.toDigits_append_toDigits (by decide) positive small).symm
    obtain ⟨c, rest, eq⟩ := List.exists_cons_of_ne_nil (digits_ne_nil n)
    have head := ih positive
    rw [eq] at head
    rw [step, eq]
    exact head

/-- The value of digits, with the fold of the standard library. -/
theorem ofDigits_eq (chars : List Char) : ofDigits chars = Nat.ofDigitChars 10 chars 0 := by
  rw [Nat.ofDigitChars_eq_foldl]
  rfl

@[simp] theorem ofDigits_digits (n : Nat) : ofDigits (digits n) = n := by
  rw [ofDigits_eq]
  exact Nat.ofDigitChars_ten_toDigits

/-- Zeros after digits multiply by a power of ten. -/
theorem ofDigits_digits_append_zeros (n count : Nat) :
    ofDigits (digits n ++ List.replicate count '0') = n * 10 ^ count := by
  rw [ofDigits_eq, Nat.ofDigitChars_append, Nat.ofDigitChars_replicate_zero, ← ofDigits_eq,
    ofDigits_digits, Nat.mul_comm]

/-- Zeros before digits do nothing. -/
theorem ofDigits_zeros_append_digits (n count : Nat) :
    ofDigits (List.replicate count '0' ++ digits n) = n := by
  rw [ofDigits_eq, Nat.ofDigitChars_append, Nat.ofDigitChars_replicate_zero, Nat.mul_zero,
    ← ofDigits_eq, ofDigits_digits]

theorem length_digits_mul_pow {n : Nat} (pos : 0 < n) (count : Nat) :
    (digits (n * 10 ^ count)).length = (digits n).length + count := by
  induction count with
  | zero => simp
  | succ count ih =>
    have step : digits (10 * (n * 10 ^ count) + 0) = digits (n * 10 ^ count) ++ digits 0 :=
      (Nat.toDigits_append_toDigits (by decide)
        (Nat.mul_pos pos (Nat.pow_pos (by decide))) (by decide)).symm
    have shift : n * 10 ^ (count + 1) = 10 * (n * 10 ^ count) + 0 := by
      rw [Nat.pow_succ, Nat.add_zero, ← Nat.mul_assoc, Nat.mul_comm]
    rw [shift, step, List.length_append, ih]
    rfl

/-! ## Integers -/

theorem natural?_digits (n : Nat) : natural? (digits n) = some n := by
  have all : (digits n).all isDigit = true :=
    List.all_eq_true.2 fun c h => isDigit_of_mem_digits h
  simp [natural?, digits_ne_nil, all]

/-- A text of digits starts with neither sign. -/
theorem digits_eq_cons (n : Nat) :
    ∃ c rest, digits n = c :: rest ∧ isDigit c = true := by
  cases h : digits n with
  | nil => exact absurd h (digits_ne_nil n)
  | cons c rest => exact ⟨c, rest, rfl, isDigit_of_mem_digits (n := n) (by simp [h])⟩

theorem ne_of_isDigit {c d : Char} (h : isDigit c = true) (other : isDigit d = false) : c ≠ d := by
  rintro rfl
  rw [h] at other
  contradiction

theorem integer?_of_unsigned {text : List Char}
    (h : ∃ c rest, text = c :: rest ∧ isDigit c = true) :
    integer? text = (natural? text).map fun n => (n : Int) := by
  obtain ⟨c, rest, rfl, digit⟩ := h
  unfold integer?
  split
  · rename_i h
    exact absurd (List.cons.inj h).1 (ne_of_isDigit digit rfl)
  · rename_i h
    exact absurd (List.cons.inj h).1 (ne_of_isDigit digit rfl)
  · rfl

/-- An integer is read back from its text. -/
theorem integer?_ofInteger (i : Int) : integer? (ofInteger i) = some i := by
  unfold ofInteger
  split
  · rw [integer?, natural?_digits]
    show some (-(i.natAbs : Int)) = some i
    congr 1
    omega
  · rw [integer?_of_unsigned (digits_eq_cons i.natAbs), natural?_digits]
    show some (i.natAbs : Int) = some i
    congr 1
    omega

/-! ## Numbers with a point -/

/-- The digits at the start of a text that goes on with something else. -/
theorem takeWhile_isDigit_append {ds : List Char} (all : ∀ c ∈ ds, isDigit c = true)
    (rest : List Char) (stop : ∀ c ∈ rest.head?, isDigit c = false) :
    (ds ++ rest).takeWhile isDigit = ds := by
  rw [List.takeWhile_append_of_pos all]
  cases rest with
  | nil => simp
  | cons c rest => simp [stop c (by simp)]

/-- What follows the digits at the start of a text. -/
theorem dropWhile_isDigit_append {ds : List Char} (all : ∀ c ∈ ds, isDigit c = true)
    (rest : List Char) (stop : ∀ c ∈ rest.head?, isDigit c = false) :
    (ds ++ rest).dropWhile isDigit = rest := by
  rw [List.dropWhile_append_of_pos all]
  cases rest with
  | nil => simp
  | cons c rest => simp [stop c (by simp)]

/-- Digits alone are a coefficient without a power of ten. -/
theorem unsigned?_of_digits {ds : List Char} (ne : ds ≠ []) (all : ∀ c ∈ ds, isDigit c = true) :
    unsigned? ds = some (ofDigits ds, 0) := by
  have take := takeWhile_isDigit_append all [] (by simp)
  have drop := dropWhile_isDigit_append all [] (by simp)
  rw [List.append_nil] at take drop
  simp [unsigned?, take, drop, ne, exponent?]

/-- Digits on both sides of a point are a coefficient with a negative power of ten. -/
theorem unsigned?_of_point {whole fraction : List Char} (ne : whole ≠ [])
    (wholeDigits : ∀ c ∈ whole, isDigit c = true)
    (fractionDigits : ∀ c ∈ fraction, isDigit c = true) :
    unsigned? (whole ++ '.' :: fraction)
      = some (ofDigits (whole ++ fraction), -(fraction.length : Int)) := by
  have take := takeWhile_isDigit_append wholeDigits ('.' :: fraction) (by simp [isDigit])
  have drop := dropWhile_isDigit_append wholeDigits ('.' :: fraction) (by simp [isDigit])
  have takeFraction := takeWhile_isDigit_append fractionDigits [] (by simp)
  have dropFraction := dropWhile_isDigit_append fractionDigits [] (by simp)
  rw [List.append_nil] at takeFraction dropFraction
  simp [unsigned?, take, drop, takeFraction, dropFraction, ne, exponent?]

theorem isDigit_of_mem_zeros {count : Nat} {c : Char} (h : c ∈ List.replicate count '0') :
    isDigit c = true := by
  rw [List.eq_of_mem_replicate h]
  rfl

/-- The point stands between two of the digits. -/
theorem unsigned?_of_point_inside {coefficient places : Nat}
    (inside : places < (digits coefficient).length) :
    unsigned? ((digits coefficient).take ((digits coefficient).length - places)
        ++ '.' :: (digits coefficient).drop ((digits coefficient).length - places))
      = some (coefficient, -(places : Int)) := by
  rw [unsigned?_of_point, List.take_append_drop, ofDigits_digits, List.length_drop]
  · congr 2
    omega
  · exact List.ne_nil_of_length_pos (by rw [List.length_take]; omega)
  · exact fun c h => isDigit_of_mem_digits (List.mem_of_mem_take h)
  · exact fun c h => isDigit_of_mem_digits (List.mem_of_mem_drop h)

/-- The point stands before all digits, with zeros around it. -/
theorem unsigned?_of_point_before {coefficient places : Nat}
    (before : (digits coefficient).length ≤ places) :
    unsigned? ('0' :: '.' :: (List.replicate (places - (digits coefficient).length) '0'
        ++ digits coefficient))
      = some (coefficient, -(places : Int)) := by
  have split (fraction : List Char) : '0' :: '.' :: fraction = ['0'] ++ '.' :: fraction := rfl
  rw [split, unsigned?_of_point, List.cons_append, List.nil_append, ← List.cons_append,
    ← List.replicate_succ, ofDigits_zeros_append_digits]
  · congr 2
    simp only [List.length_append, List.length_replicate]
    omega
  · simp
  · simp [isDigit]
  · intro c h
    exact (List.mem_append.1 h).elim isDigit_of_mem_zeros isDigit_of_mem_digits

/-- A text without a power of ten is read as the number it was written for, except that the zeros
of a large number count as digits. -/
theorem unsigned?_positional (coefficient : Nat) (exponent : Int) :
    unsigned? (positional coefficient exponent)
      = some (if 0 ≤ exponent then (coefficient * 10 ^ exponent.toNat, 0)
          else (coefficient, exponent)) := by
  unfold positional
  split
  · rw [unsigned?_of_digits (by simp [digits_ne_nil]), ofDigits_digits_append_zeros]
    intro c h
    exact (List.mem_append.1 h).elim isDigit_of_mem_digits isDigit_of_mem_zeros
  · have places : -((-exponent).toNat : Int) = exponent := by omega
    dsimp only
    split
    · rename_i inside
      rw [unsigned?_of_point_inside inside, places]
    · rename_i before
      rw [unsigned?_of_point_before (Nat.not_lt.1 before), places]

end Decimal

/-! ## Rounding -/

namespace Binary64

/-- A fraction may be expanded before it is rounded. -/
theorem nearest_mul_mul (num den : Nat) {k : Nat} (pos : 0 < k) :
    nearest (num * k) (den * k) = nearest num den := by
  have quotient : num * k / (den * k) = num / den := Nat.mul_div_mul_right num den pos
  have rest (t : Nat) : num * k - t * (den * k) = (num - t * den) * k := by
    rw [Nat.sub_mul, Nat.mul_assoc]
  have less (a b : Nat) : 2 * (a * k) < b * (den * k) ↔ 2 * a < b * den := by
    rw [← Nat.mul_assoc, ← Nat.mul_assoc, Nat.mul_lt_mul_right pos]
  have same (a b : Nat) : 2 * (a * k) = b * (den * k) ↔ 2 * a = b * den := by
    rw [← Nat.mul_assoc, ← Nat.mul_assoc, Nat.mul_left_inj (Nat.ne_of_gt pos)]
  simp only [nearest, quotient, rest, less, same]

theorem log2_mul_two_pow (top shift : Nat) (ge : 2 ^ 52 ≤ top) (lt : top < 2 ^ 53) :
    (top * 2 ^ shift).log2 = 52 + shift := by
  have pos : 0 < 2 ^ shift := Nat.two_pow_pos shift
  rw [Nat.log2_eq_iff (Nat.mul_ne_zero (by omega) (Nat.ne_of_gt pos)),
    show 52 + shift + 1 = 53 + shift by omega, Nat.pow_add, Nat.pow_add]
  exact ⟨Nat.mul_le_mul_right _ ge, Nat.mul_lt_mul_of_pos_right lt pos⟩

/-- A whole number of units whose highest bits leave no rest is the magnitude of its pattern. -/
theorem nearest_of_exact {units top shift : Nat} (eq : units = top * 2 ^ shift)
    (log : units.log2 - 52 = shift) (le : shift * 2 ^ 52 + top ≤ infinite) :
    nearest units 1 = shift * 2 ^ 52 + top := by
  have pos : 0 < 2 ^ shift := Nat.two_pow_pos shift
  have quotient : units / 2 ^ shift = top := by
    rw [eq, Nat.mul_div_cancel _ pos]
  simp only [nearest, Nat.div_one, log, quotient, Nat.mul_one, ← eq, Nat.sub_self, Nat.mul_zero,
    if_pos pos]
  exact Nat.min_eq_left le

/-- Every finite magnitude is the nearest one to itself. -/
theorem nearest_unitsOf {magnitude : Nat} (finite : magnitude < infinite) :
    nearest (unitsOf magnitude) 1 = magnitude := by
  unfold unitsOf
  split
  · rename_i small
    have log : magnitude.log2 - 52 = 0 := by
      rcases Nat.eq_zero_or_pos magnitude with rfl | pos
      · rfl
      · have := (Nat.log2_lt (Nat.ne_of_gt pos)).2 small
        omega
    have all : magnitude = magnitude * 2 ^ 0 := by simp
    have := nearest_of_exact all log (by omega)
    omega
  · rename_i large
    have log := log2_mul_two_pow (2 ^ 52 + magnitude % 2 ^ 52) (magnitude / 2 ^ 52 - 1) (by omega)
      (by omega)
    rw [nearest_of_exact rfl (by omega) (by omega)]
    omega

theorem unitsOf_pos {magnitude : Nat} (pos : 0 < magnitude) : 0 < unitsOf magnitude := by
  unfold unitsOf
  split
  · exact pos
  · exact Nat.mul_pos (by omega) (Nat.two_pow_pos _)

/-- A number of units that no finite number has. -/
def unitsLimit : Nat := 2 ^ 53 * 2 ^ 2045

theorem two_pow_le_unitsLimit : 2 ^ 52 ≤ unitsLimit := by
  decide +kernel

theorem mul_two_pow_lt {significand exponent : Nat} (limit : Nat) (lt : significand < 2 ^ 53)
    (le : exponent ≤ limit) : significand * 2 ^ exponent < 2 ^ 53 * 2 ^ limit :=
  calc significand * 2 ^ exponent < 2 ^ 53 * 2 ^ exponent :=
        Nat.mul_lt_mul_of_pos_right lt (Nat.two_pow_pos exponent)
    _ ≤ 2 ^ 53 * 2 ^ limit := Nat.mul_le_mul_left _ (Nat.pow_le_pow_right (by decide) le)

theorem unitsOf_lt {magnitude : Nat} (finite : magnitude < infinite) :
    unitsOf magnitude < unitsLimit := by
  unfold infinite at finite
  unfold unitsOf
  split
  · rename_i small
    exact Nat.lt_of_lt_of_le small two_pow_le_unitsLimit
  · have significand : 2 ^ 52 + magnitude % 2 ^ 52 < 2 ^ 53 := by omega
    have exponent : magnitude / 2 ^ 52 - 1 ≤ 2045 := by omega
    rw [unitsLimit]
    exact mul_two_pow_lt 2045 significand exponent

/-- Taking a number apart into its sign and its magnitude loses nothing. -/
theorem ofMagnitude_isNegative_magnitude (x : Binary64) :
    ofMagnitude x.isNegative x.magnitude = x := by
  obtain ⟨bits⟩ := x
  have := bits.toNat_lt
  simp only [ofMagnitude, isNegative, magnitude, mk.injEq, decide_eq_true_eq]
  rw [← UInt64.toNat_inj, UInt64.toNat_ofNat']
  split <;> omega

end Binary64

namespace Decimal

/-- Zeros that are moved from the power of ten into the coefficient do not change the rounding. -/
theorem round_mul_pow (coefficient : Nat) {exponent : Int} (nonneg : 0 ≤ exponent) :
    round (coefficient * 10 ^ exponent.toNat) 0 = round coefficient exponent := by
  rcases Nat.eq_zero_or_pos coefficient with rfl | pos
  · simp [round]
  · have nonzero : coefficient * 10 ^ exponent.toNat ≠ 0 :=
      Nat.ne_of_gt (Nat.mul_pos pos (Nat.pow_pos (by decide)))
    have size : ((digits (coefficient * 10 ^ exponent.toNat)).length + 0 : Int)
        = (digits coefficient).length + exponent := by
      rw [length_digits_mul_pow pos]
      omega
    simp only [round, size, nonzero, Nat.ne_of_gt pos, if_false, nonneg, if_true, Int.toNat_zero,
      Nat.pow_zero, Nat.mul_one, Int.le_refl]

/-- The bounds inside which a number of units with all its digits is rounded by division. -/
theorem size_exact {units : Nat} (pos : 0 < units) (lt : units < Binary64.unitsLimit) :
    743 < (digits (units * 5 ^ 1074)).length ∧ (digits (units * 5 ^ 1074)).length ≤ 1384 := by
  constructor
  · refine Nat.lt_of_not_le fun le => ?_
    have below := (Nat.length_toDigits_le_iff (by decide) (by decide)).1 le
    refine Nat.not_le.2 below (Nat.le_trans ?_ (Nat.le_mul_of_pos_left _ pos))
    decide +kernel
  · refine (Nat.length_toDigits_le_iff (by decide) (by decide)).2 ?_
    have five : 0 < 5 ^ 1074 := by decide +kernel
    refine Nat.lt_of_lt_of_le (Nat.mul_lt_mul_of_pos_right lt five) ?_
    decide +kernel

/-- The text with all digits reads back. -/
theorem round_exact {magnitude : Nat} (pos : 0 < magnitude)
    (finite : magnitude < Binary64.infinite) :
    round (exact magnitude).1 (exact magnitude).2 = magnitude := by
  have units := Binary64.unitsOf_pos pos
  obtain ⟨long, short⟩ := size_exact units (Binary64.unitsOf_lt finite)
  have five : 0 < 5 ^ 1074 := by decide +kernel
  have nonzero : Binary64.unitsOf magnitude * 5 ^ 1074 ≠ 0 := Nat.ne_of_gt (Nat.mul_pos units five)
  have ten : 10 ^ 1074 = 1 * (5 ^ 1074 * 2 ^ 1074) := by decide +kernel
  have expand : 0 < 5 ^ 1074 * 2 ^ 1074 := by decide +kernel
  have exponent : (-(-1074 : Int)).toNat = 1074 := rfl
  simp only [round, exact, nonzero, if_false, exponent]
  rw [if_neg (by omega), if_neg (by omega), if_neg (by omega), Nat.mul_assoc, ten]
  exact (Binary64.nearest_mul_mul _ 1 expand).trans (Binary64.nearest_unitsOf finite)

/-- A text that the search finds reads back, because that is what it is searched for. -/
theorem round_of_withDigits? {magnitude count : Nat} {found : Nat × Int}
    (h : withDigits? magnitude count = some found) : round found.1 found.2 = magnitude := by
  rw [withDigits?] at h
  simpa using List.find?_some h

/-- The shortest decimal number reads back. -/
theorem round_shortest {magnitude : Nat} (finite : magnitude < Binary64.infinite) :
    round (shortest magnitude).1 (shortest magnitude).2 = magnitude := by
  unfold shortest
  split
  · rename_i zero
    rw [zero]
    rfl
  · rename_i nonzero
    cases h : (List.range' 1 17).findSome? (withDigits? magnitude) with
    | none => exact round_exact (Nat.pos_of_ne_zero nonzero) finite
    | some found =>
      obtain ⟨count, _, eq⟩ := List.exists_of_findSome?_eq_some h
      exact round_of_withDigits? eq

/-! ## Binary64 numbers -/

/-- A text starts with a digit whether or not it needs a point. -/
theorem positional_eq_cons (coefficient : Nat) (exponent : Int) :
    ∃ c rest, positional coefficient exponent = c :: rest ∧ isDigit c = true := by
  obtain ⟨c, rest, eq, digit⟩ := digits_eq_cons coefficient
  unfold positional
  split
  · exact ⟨c, _, by rw [eq]; rfl, digit⟩
  · dsimp only
    split
    · obtain ⟨kept, keep⟩ : ∃ kept, (digits coefficient).length - (-exponent).toNat = kept + 1 :=
        ⟨_, (Nat.sub_add_cancel (by omega)).symm⟩
      exact ⟨c, _, by rw [keep, eq]; rfl, digit⟩
    · exact ⟨'0', _, rfl, rfl⟩

theorem toLower_of_isDigit {c : Char} (digit : isDigit c = true) : c.toLower = c := by
  obtain ⟨_, low⟩ := bounds_of_isDigit digit
  refine dif_neg ?_
  rintro ⟨upper, _⟩
  have high : 65 ≤ c.toNat := upper
  omega

/-- A text that starts with a digit is none of the words for infinite and undefined numbers. -/
theorem magnitude?_of_digit {text : List Char}
    (h : ∃ c rest, text = c :: rest ∧ isDigit c = true) :
    magnitude? text = (unsigned? text).map fun (coefficient, exponent) =>
      round coefficient exponent := by
  obtain ⟨c, rest, rfl, digit⟩ := h
  have word (letter : Char) (letters : List Char) (ne : isDigit letter = false) :
      String.ofList ((c :: rest).map Char.toLower) ≠ String.ofList (letter :: letters) := by
    intro same
    have head := (List.cons.inj (String.ofList_injective same)).1
    rw [toLower_of_isDigit digit] at head
    exact ne_of_isDigit digit ne head
  have inf : String.ofList ((c :: rest).map Char.toLower) ≠ "inf" :=
    word 'i' ['n', 'f'] rfl
  have infinity : String.ofList ((c :: rest).map Char.toLower) ≠ "infinity" :=
    word 'i' ['n', 'f', 'i', 'n', 'i', 't', 'y'] rfl
  have nan : String.ofList ((c :: rest).map Char.toLower) ≠ "nan" :=
    word 'n' ['a', 'n'] rfl
  rw [magnitude?]
  dsimp only
  rw [if_neg (by simp only [inf, infinity, decide_false, Bool.or_self]; decide), if_neg nan]

theorem binary64?_of_digit {text : List Char}
    (h : ∃ c rest, text = c :: rest ∧ isDigit c = true) :
    binary64? text = (magnitude? text).map (Binary64.ofMagnitude false) := by
  obtain ⟨c, rest, rfl, digit⟩ := h
  unfold binary64?
  split
  · rename_i h
    exact absurd (List.cons.inj h).1 (ne_of_isDigit digit rfl)
  · rename_i h
    exact absurd (List.cons.inj h).1 (ne_of_isDigit digit rfl)
  · rfl

/-- The magnitude of a finite number is read back from its text. -/
theorem magnitude?_shortest {magnitude : Nat} (finite : magnitude < Binary64.infinite) :
    magnitude? (positional (shortest magnitude).1 (shortest magnitude).2) = some magnitude := by
  rw [magnitude?_of_digit (positional_eq_cons _ _), unsigned?_positional]
  split
  · rename_i nonneg
    exact congrArg some ((round_mul_pow _ nonneg).trans (round_shortest finite))
  · exact congrArg some (round_shortest finite)

/-- A finite number is read back from its text, to the bit. -/
theorem binary64?_ofBinary64 {x : Binary64} (finite : x.isFinite = true) :
    binary64? (ofBinary64 x) = some x := by
  have lt : x.magnitude < Binary64.infinite := of_decide_eq_true finite
  have number : x.isNaN = false := decide_eq_false (Nat.not_lt.2 (Nat.le_of_lt lt))
  have back := Binary64.ofMagnitude_isNegative_magnitude x
  simp only [ofBinary64, number, finite, Bool.not_true, Bool.false_eq_true, if_false]
  cases sign : x.isNegative with
  | true =>
    rw [sign] at back
    simp only [if_true, List.cons_append, List.nil_append, binary64?]
    rw [magnitude?_shortest lt, Option.map_some, back]
  | false =>
    rw [sign] at back
    simp only [Bool.false_eq_true, if_false, List.nil_append]
    rw [binary64?_of_digit (positional_eq_cons _ _), magnitude?_shortest lt, Option.map_some, back]

theorem mem_positional {coefficient : Nat} {exponent : Int} {c : Char}
    (h : c ∈ positional coefficient exponent) : isDigit c = true ∨ c = '.' := by
  unfold positional at h
  split at h
  · exact .inl ((List.mem_append.1 h).elim isDigit_of_mem_digits isDigit_of_mem_zeros)
  · dsimp only at h
    split at h
    · rcases List.mem_append.1 h with h | h
      · exact .inl (isDigit_of_mem_digits (List.mem_of_mem_take h))
      · rcases List.mem_cons.1 h with rfl | h
        · exact .inr rfl
        · exact .inl (isDigit_of_mem_digits (List.mem_of_mem_drop h))
    · rcases List.mem_cons.1 h with rfl | h
      · exact .inl rfl
      · rcases List.mem_cons.1 h with rfl | h
        · exact .inr rfl
        · exact .inl ((List.mem_append.1 h).elim isDigit_of_mem_zeros isDigit_of_mem_digits)

/-- The text of a finite number holds digits, a point and a minus sign at most. -/
theorem mem_ofBinary64 {x : Binary64} (finite : x.isFinite = true) {c : Char}
    (h : c ∈ ofBinary64 x) : isDigit c = true ∨ c = '.' ∨ c = '-' := by
  have lt : x.magnitude < Binary64.infinite := of_decide_eq_true finite
  have number : x.isNaN = false := decide_eq_false (Nat.not_lt.2 (Nat.le_of_lt lt))
  simp only [ofBinary64, number, finite, Bool.not_true, Bool.false_eq_true, if_false] at h
  rcases List.mem_append.1 h with h | h
  · split at h
    · exact .inr (.inr (List.mem_singleton.1 h))
    · contradiction
  · exact (mem_positional h).imp_right .inl

end Decimal

end SealedEnvelope
