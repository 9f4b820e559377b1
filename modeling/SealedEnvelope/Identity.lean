import SealedEnvelope.Error
import SealedEnvelope.Text.Utf8.Lemmas

/-!
# Identities (SPEC_FULL §3)

A participant is named by eight characters of ASCII, none of them blank or a control.
-/

set_option autoImplicit false

namespace SealedEnvelope

namespace Identity

/-- Whether a character may stand in an identity. -/
def isGraphic (c : Char) : Bool := '!' ≤ c && c ≤ '~'

/-- Whether a text is an identity. -/
def isLegal (text : String) : Bool := text.toList.length = 8 && text.toList.all isGraphic

end Identity

/-- The name of a participant. -/
structure Identity where
  text : String
  legal : Identity.isLegal text = true
  deriving DecidableEq

namespace Identity

@[ext] theorem ext {left right : Identity} (h : left.text = right.text) : left = right := by
  cases left
  cases right
  simp_all

/-- The identity with the given text, if it is one. -/
def ofText? (text : String) : Option Identity :=
  if h : isLegal text = true then some ⟨text, h⟩ else none

/-- The identity with the given text, or an error with the text. -/
def parse (text : String) : Except Error Identity :=
  match ofText? text with
  | some identity => .ok identity
  | none => .error (.illegalIdentity text)

/-- The eight bytes of an identity. -/
def toBytes (identity : Identity) : Bytes := Utf8.encode identity.text

/-- The description of an identity. -/
def describe (identity : Identity) : String := "Identity[" ++ identity.text ++ "]"

/-- The order of the characters, first character first. -/
def compare (left right : Identity) : Ordering := Ord.compare left.toBytes right.toBytes

instance : Ord Identity := ⟨compare⟩

instance : Std.TransOrd Identity :=
  inferInstanceAs (Std.TransCmp (compareOn Identity.toBytes))

/-- No two identities are alike in this order. -/
instance : Std.LawfulEqOrd Identity where
  eq_of_compare same := ext (Utf8.encode_inj.1 (Std.LawfulEqOrd.eq_of_compare same))

/-! ## Reading identities -/

theorem length_toList (identity : Identity) : identity.text.toList.length = 8 := by
  have legal := identity.legal
  unfold isLegal at legal
  exact of_decide_eq_true ((Bool.and_eq_true _ _).mp legal).1

/-- An identity is written in ASCII. -/
theorem lt_of_mem_toList (identity : Identity) {c : Char} (mem : c ∈ identity.text.toList) :
    c.toNat < 0x80 := by
  have legal := identity.legal
  unfold isLegal at legal
  have graphic := List.all_eq_true.1 ((Bool.and_eq_true _ _).mp legal).2 c mem
  unfold isGraphic at graphic
  have high : c.toNat ≤ '~'.toNat := of_decide_eq_true ((Bool.and_eq_true _ _).mp graphic).2
  exact Nat.lt_of_le_of_lt high (by decide)

theorem parse_eq_ok {text : String} {identity : Identity} :
    parse text = .ok identity ↔ identity.text = text := by
  unfold parse ofText?
  constructor
  · intro h
    split at h
    · rename_i eq
      cases h
      split at eq
      · cases eq
        rfl
      · contradiction
    · contradiction
  · rintro rfl
    rw [dif_pos identity.legal]

/-- A text that is no identity, and no other text, is refused, and told in the error. -/
theorem parse_eq_error {text : String} {error : Error} :
    parse text = .error error ↔ ¬ isLegal text = true ∧ .illegalIdentity text = error := by
  unfold parse ofText?
  constructor
  · intro h
    split at h
    · contradiction
    · rename_i eq
      split at eq
      · contradiction
      · rename_i illegal
        exact ⟨illegal, Except.error.inj h⟩
  · rintro ⟨illegal, rfl⟩
    rw [dif_neg illegal]

theorem parse_of_length_ne {text : String} (h : text.toList.length ≠ 8) :
    parse text = .error (.illegalIdentity text) := by
  refine parse_eq_error.2 ⟨?_, rfl⟩
  unfold isLegal
  simp [h]

end Identity

end SealedEnvelope
