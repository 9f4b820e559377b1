import Mathlib
import SealedEnvelope.Lookup.Hash
import SealedEnvelope.Proofs.Number.ReadBack
import SealedEnvelope.Proofs.Text.Trimming
import SealedEnvelope.Text.Utf8.Lemmas

/-!
# What is looked up alike (SPEC_FULL §4.5)

Two phone numbers are hashed alike if one can be made into the other by putting in and taking out
characters that are no digits, and two addresses if what stands between the blanks at their ends
differs at most in the case of letters of ASCII.  No others are brought to one form.
-/

set_option autoImplicit false

namespace SealedEnvelope

namespace Lookup

/-! ## Phone numbers -/

/-- A phone number with one character more, which is no digit of ASCII. -/
inductive Decorated : List Char → List Char → Prop where
  | insert (front back : List Char) {c : Char} (noDigit : c.isDigit = false) :
      Decorated (front ++ back) (front ++ c :: back)

theorem toList_normalizePhone (number : String) :
    (normalizePhone number).toList = number.toList.filter Char.isDigit := by
  have same : Decimal.isDigit = Char.isDigit := funext Decimal.isDigit_eq
  rw [normalizePhone, String.toList_ofList, same]

theorem normalizePhone_eq_iff {left right : String} :
    normalizePhone left = normalizePhone right
      ↔ left.toList.filter Char.isDigit = right.toList.filter Char.isDigit := by
  rw [← String.toList_inj, toList_normalizePhone, toList_normalizePhone]

theorem eqvGen_cons (c : Char) {left right : List Char}
    (h : Relation.EqvGen Decorated left right) :
    Relation.EqvGen Decorated (c :: left) (c :: right) := by
  induction h with
  | rel plain text step =>
    obtain ⟨front, back, noDigit⟩ := step
    exact .rel _ _ (.insert (c :: front) back noDigit)
  | refl text => exact .refl _
  | symm left right _ ih => exact .symm _ _ ih
  | trans left middle right _ _ ih ih' => exact .trans _ _ _ ih ih'

/-- Every phone number is its digits with other characters put in. -/
theorem eqvGen_filter (text : List Char) :
    Relation.EqvGen Decorated (text.filter Char.isDigit) text := by
  induction text with
  | nil => exact .refl _
  | cons c text ih =>
    by_cases digit : c.isDigit = true
    · rw [List.filter_cons_of_pos digit]
      exact eqvGen_cons c ih
    · rw [List.filter_cons_of_neg digit]
      exact .trans _ _ _ ih (.rel _ _ (.insert [] text (eq_false_of_ne_true digit)))

/-- Numbers have the same digits exactly if one becomes the other by putting in and taking out
characters that are no digits. -/
theorem filter_isDigit_eq_iff {left right : List Char} :
    left.filter Char.isDigit = right.filter Char.isDigit
      ↔ Relation.EqvGen Decorated left right := by
  constructor
  · intro same
    have toRight := eqvGen_filter right
    rw [← same] at toRight
    exact .trans _ _ _ (.symm _ _ (eqvGen_filter left)) toRight
  · intro h
    induction h with
    | rel plain text step =>
      obtain ⟨front, back, noDigit⟩ := step
      rw [List.filter_append, List.filter_append, List.filter_cons_of_neg (by simp [noDigit])]
    | refl text => rfl
    | symm left right _ ih => exact ih.symm
    | trans left middle right _ _ ih ih' => exact ih.trans ih'

/-! ## Letters in either case -/

/-- What becomes of a character in lower case: a capital letter of ASCII becomes the small one, which
is thirty-two places after it, and all others are kept. -/
def Lowered (before after : Char) : Prop :=
  if before.isUpper = true then after.toNat = before.toNat + 32 else after = before

/-- Two characters that are the same but for the case of a letter of ASCII. -/
def SameLetter (left right : Char) : Prop :=
  left = right ∨ Lowered left right ∨ Lowered right left

theorem bounds_of_isUpper {c : Char} (upper : c.isUpper = true) :
    65 ≤ c.toNat ∧ c.toNat ≤ 90 :=
  of_decide_eq_true upper

theorem toNat_toLower {c : Char} (upper : c.isUpper = true) :
    c.toLower.toNat = c.toNat + 32 := by
  have bounds := bounds_of_isUpper upper
  rw [Char.toLower_eq_of_isUpper upper, Utf8.toNat_ofNat_char (by omega)]

theorem lowered_iff {before after : Char} : Lowered before after ↔ before.toLower = after := by
  unfold Lowered
  split
  · rename_i upper
    rw [← Char.toNat_inj, toNat_toLower upper, eq_comm]
  · rename_i notUpper
    rw [Char.toLower_eq_of_not_isUpper notUpper, eq_comm]

/-- Characters have one small form exactly if they are the same but for case. -/
theorem toLower_eq_iff {left right : Char} :
    left.toLower = right.toLower ↔ SameLetter left right := by
  rw [SameLetter, lowered_iff, lowered_iff]
  constructor
  · intro same
    by_cases leftUpper : left.isUpper = true
    · by_cases rightUpper : right.isUpper = true
      · have number := congrArg Char.toNat same
        rw [toNat_toLower leftUpper, toNat_toLower rightUpper] at number
        exact .inl (Char.toNat_inj.1 (Nat.add_right_cancel number))
      · rw [same, Char.toLower_eq_of_not_isUpper rightUpper]
        exact .inr (.inl rfl)
    · rw [← same, Char.toLower_eq_of_not_isUpper leftUpper]
      exact .inr (.inr rfl)
  · rintro (rfl | rfl | rfl)
    · rfl
    · exact (Char.toLower_toLower_eq_toLower left).symm
    · exact Char.toLower_toLower_eq_toLower right

/-! ## Email addresses -/

/-- Two addresses that are the same between the blanks at their ends, but for the case of letters of
ASCII. -/
def SameAddress (left right : String) : Prop :=
  ∃ core other, Text.IsCore core left.toList ∧ Text.IsCore other right.toList
    ∧ List.Forall₂ SameLetter core other

theorem isBlank_of_letter {c : Char} (low : 65 ≤ c.toNat) (high : c.toNat ≤ 122) :
    Text.isBlank c = false := by
  simp [Text.isBlank, Text.blankRanges]
  omega

theorem isBlank_toLower (c : Char) : Text.isBlank c.toLower = Text.isBlank c := by
  by_cases upper : c.isUpper = true
  · have number := toNat_toLower upper
    obtain ⟨low, high⟩ := bounds_of_isUpper upper
    rw [isBlank_of_letter low (by omega), isBlank_of_letter (by omega) (by omega)]
  · rw [Char.toLower_eq_of_not_isUpper upper]

theorem toList_normalizeEmail (address : String) :
    (normalizeEmail address).toList = (Text.trim address.toList).map Char.toLower := by
  rw [normalizeEmail, String.toList_ofList]

theorem normalizeEmail_eq_iff {left right : String} :
    normalizeEmail left = normalizeEmail right ↔ SameAddress left right := by
  have letters (core other : List Char) :
      core.map Char.toLower = other.map Char.toLower ↔ List.Forall₂ SameLetter core other := by
    rw [← List.forall₂_eq_eq_eq, List.forall₂_map_left_iff, List.forall₂_map_right_iff]
    simp only [toLower_eq_iff]
  rw [← String.toList_inj, toList_normalizeEmail, toList_normalizeEmail, letters]
  constructor
  · exact fun same => ⟨_, _, Text.isCore_trim _, Text.isCore_trim _, same⟩
  · rintro ⟨core, other, isCore, isCore', same⟩
    rwa [isCore.trim_eq, isCore'.trim_eq]

theorem normalizePhone_normalizePhone (number : String) :
    normalizePhone (normalizePhone number) = normalizePhone number := by
  rw [normalizePhone_eq_iff, toList_normalizePhone, List.filter_filter]
  simp only [Bool.and_self]

theorem normalizeEmail_normalizeEmail (address : String) :
    normalizeEmail (normalizeEmail address) = normalizeEmail address := by
  rw [← String.toList_inj, toList_normalizeEmail, toList_normalizeEmail,
    Text.trim_map isBlank_toLower, Text.trim_trim, List.map_map]
  exact List.map_congr_left fun c _ => Char.toLower_toLower_eq_toLower c

/-! ## Both -/

/-- A normalized text is normal.  Phone numbers have one normal form exactly if they have the same
digits of ASCII, that is if one becomes the other by putting in and taking out any other characters;
such numbers have one hash.  Addresses have one normal form, and so are hashed from the same bytes,
exactly if they are the same between the blanks at their ends but for the case of letters of ASCII:
what is hashed is all that stands between these blanks, with capital letters of ASCII made small
and everything else as it is.  What is hashed of a phone number is its digits, in their order. -/
theorem normalize_eq_iff :
    (∀ text : String, normalizePhone (normalizePhone text) = normalizePhone text
      ∧ normalizeEmail (normalizeEmail text) = normalizeEmail text)
    ∧ (∀ left right : String,
      (normalizePhone left = normalizePhone right
        ↔ left.toList.filter Char.isDigit = right.toList.filter Char.isDigit)
      ∧ (normalizePhone left = normalizePhone right
        ↔ Relation.EqvGen Decorated left.toList right.toList)
      ∧ (Relation.EqvGen Decorated left.toList right.toList → ofPhone left = ofPhone right))
    ∧ (∀ left right : String,
      (normalizeEmail left = normalizeEmail right ↔ SameAddress left right)
      ∧ (SameAddress left right → ofEmail left = ofEmail right)
      ∧ (Utf8.encode (normalizeEmail left) = Utf8.encode (normalizeEmail right)
        → SameAddress left right))
    ∧ (∀ address : String,
      (ofEmail address).toList = Hmac.authenticate emailKey (Utf8.encode (normalizeEmail address))
      ∧ ∃ core, Text.IsCore core address.toList
        ∧ List.Forall₂ Lowered core (normalizeEmail address).toList)
    ∧ ∀ number : String, (ofPhone number).toList
      = Hmac.authenticate phoneKey (Utf8.encodeChars (number.toList.filter Char.isDigit)) := by
  refine ⟨fun text => ⟨normalizePhone_normalizePhone text, normalizeEmail_normalizeEmail text⟩,
    fun left right => ?_, fun left right => ?_, fun address => ⟨rfl, ?_⟩, fun number => ?_⟩
  · have edited : normalizePhone left = normalizePhone right
        ↔ Relation.EqvGen Decorated left.toList right.toList :=
      normalizePhone_eq_iff.trans filter_isDigit_eq_iff
    exact ⟨normalizePhone_eq_iff, edited, fun chain => congrArg (hash phoneKey) (edited.2 chain)⟩
  · refine ⟨normalizeEmail_eq_iff, fun same => ?_, fun same => ?_⟩
    · exact congrArg (hash emailKey) (normalizeEmail_eq_iff.2 same)
    · exact normalizeEmail_eq_iff.1 (Utf8.encode_inj.1 same)
  · refine ⟨_, Text.isCore_trim address.toList, ?_⟩
    rw [toList_normalizeEmail, List.forall₂_map_right_iff, List.forall₂_same]
    exact fun c _ => lowered_iff.2 rfl
  · have hashed : (ofPhone number).toList
        = Hmac.authenticate phoneKey (Utf8.encodeChars (normalizePhone number).toList) := rfl
    rw [hashed, toList_normalizePhone]

-- the known answers of SPEC_FULL §4.5
example : (ofPhone "+41 79 123 45-67").toHex
    = "ad398f4d7ebe63c6550a486cc6e07f9baa09bd9d8b3d8cb9d9be106d35a7fdbc" := by
  decide +kernel

example : (ofEmail "  Test@Threema.ch ").toHex
    = "1ea093239cc5f0e1b6ec81b866265b921f26dc4033025410063309f4d1a8ee2c" := by
  decide +kernel

/-- A phone number with an Arabic digit among its marks; an address with an ideographic space before
it, blanks inside it and a letter beyond ASCII; and the same address with this letter in the other
case, which is another one. -/
theorem normalize_eq_iff_formatted :
    ofPhone "+41 (79) ٣12" = ofPhone "417912"
      ∧ SameAddress "\u3000Zoë  B@Example.ORG\n" "zoë  b@EXAMPLE.org"
      ∧ ofEmail "\u3000Zoë  B@Example.ORG\n" = ofEmail "zoë  b@EXAMPLE.org"
      ∧ ¬ SameAddress "zoë  b@example.org" "zoË  b@example.org" := by
  obtain ⟨_, phones, emails, _, _⟩ := normalize_eq_iff
  have digits : normalizePhone "+41 (79) ٣12" = normalizePhone "417912" :=
    (phones _ _).1.2 (by decide)
  have same : SameAddress "\u3000Zoë  B@Example.ORG\n" "zoë  b@EXAMPLE.org" := by
    refine (emails _ _).1.1 (String.toList_injective ?_)
    rw [toList_normalizeEmail, toList_normalizeEmail]
    decide +kernel
  refine ⟨(phones _ _).2.2 ((phones _ _).2.1.1 digits), same, (emails _ _).2.1 same, ?_⟩
  intro other
  have letters := congrArg String.toList ((emails _ _).1.2 other)
  rw [toList_normalizeEmail, toList_normalizeEmail] at letters
  exact absurd letters (by decide +kernel)

end Lookup

end SealedEnvelope
