import SealedEnvelope.Proofs.Envelope.RoundTrip
import SealedEnvelope.Proofs.Message.Acceptance

/-!
# What an opened envelope proves (SPEC_FULL §4.4)

An envelope opens exactly if its box was sealed under the key that the two sides agree on, and then
to what its one plaintext holds.  Every other envelope is refused in one and the same way, which no
fault of a plaintext can be taken for.
-/

set_option autoImplicit false

namespace SealedEnvelope

open Outcome (FormatOnly)

theorem Padding.unpad_formatOnly (padded : Bytes) : FormatOnly (Padding.unpad padded) := by
  unfold unpad
  split
  · exact .error rfl
  · split
    · exact .error rfl
    · exact .ok _

namespace Envelope

variable {envelope : Envelope} {sender : PublicKey} {receiver : PrivateKey}

/-! ## Authentic and other envelopes -/

/-- An envelope under a key is the box of something under that key and the nonce it travels with. -/
def Seals (envelope : Envelope) (key : SymmetricKey) (padded : Bytes) : Prop :=
  SecretBox.encrypt key envelope.nonce padded = envelope.box

/-- An envelope seals one plaintext only. -/
theorem Seals.unique {key : SymmetricKey} {left right : Bytes} (h : envelope.Seals key left)
    (h' : envelope.Seals key right) : left = right :=
  SecretBox.encrypt_inj.1 (h.trans h'.symm)

/-- A box without room for a tag seals nothing. -/
theorem not_seals_of_lt {key : SymmetricKey} (short : envelope.box.length < SecretBox.tagSize)
    (padded : Bytes) : ¬ envelope.Seals key padded := by
  intro h
  rw [← h, SecretBox.length_encrypt] at short
  omega

/-- An authentic envelope opens to what its plaintext holds. -/
theorem Seals.decrypt_eq {padded : Bytes}
    (h : envelope.Seals (PrivateKey.agree receiver sender) padded) :
    envelope.decrypt sender receiver = Padding.unpad padded >>= Message.decode :=
  decrypt_of_opened (SecretBox.decrypt_eq_ok.2 h)

/-- An envelope that seals nothing is refused as not authentic. -/
theorem decrypt_of_forall_not_seals
    (h : ∀ padded, ¬ envelope.Seals (PrivateKey.agree receiver sender) padded) :
    envelope.decrypt sender receiver = .error .notAuthentic :=
  decrypt_of_refused (SecretBox.decrypt_eq_rejected.2 h)

/-! ## Faults of a plaintext -/

/-- A plaintext that holds no message is malformed or of an unknown type. -/
theorem kind_of_unpad_bind_decode {padded : Bytes} {error : Error}
    (h : (Padding.unpad padded >>= Message.decode) = .error error) :
    error.kind = .format ∨ error.kind = .unknownType := by
  cases unpadded : Padding.unpad padded with
  | error fault =>
    rw [unpadded] at h
    cases h
    exact .inl (Padding.unpad_formatOnly padded error unpadded)
  | ok encoding =>
    rw [unpadded] at h
    rcases Message.unknown_or_format_of_decode h with ⟨tag, _, _, _, rfl⟩ | format
    · exact .inr rfl
    · exact .inl format

/-- An authentic envelope is never refused as not authentic. -/
theorem Seals.kind_of_decrypt {padded : Bytes} {error : Error}
    (h : envelope.Seals (PrivateKey.agree receiver sender) padded)
    (refused : envelope.decrypt sender receiver = .error error) :
    error.kind = .format ∨ error.kind = .unknownType := by
  rw [h.decrypt_eq] at refused
  exact kind_of_unpad_bind_decode refused

theorem decrypt_eq_notAuthentic :
    envelope.decrypt sender receiver = .error .notAuthentic
      ↔ ∀ padded, ¬ envelope.Seals (PrivateKey.agree receiver sender) padded := by
  constructor
  · intro refused padded h
    rcases h.kind_of_decrypt refused with kind | kind
    · contradiction
    · contradiction
  · exact decrypt_of_forall_not_seals

/-- Whatever message an envelope opens to, an encoding of it was sealed with its padding under the
key that the two sides agree on. -/
theorem exists_seals_of_decrypt {message : Message}
    (opened : envelope.decrypt sender receiver = .ok message) :
    ∃ encoding tail last, envelope.Seals (PrivateKey.agree receiver sender) (encoding ++ tail)
      ∧ (encoding ++ tail).getLast? = some last ∧ last.toNat = tail.length
      ∧ Message.decode encoding = .ok message := by
  by_cases authentic : ∃ padded, envelope.Seals (PrivateKey.agree receiver sender) padded
  · obtain ⟨padded, h⟩ := authentic
    rw [h.decrypt_eq] at opened
    obtain ⟨encoding, unpadded, decoded⟩ := Outcome.bind_eq_ok.1 opened
    obtain ⟨tail, last, rfl, isLast, length⟩ := Padding.exists_tail_of_unpad unpadded
    exact ⟨encoding, tail, last, h, isLast, length, decoded⟩
  · rw [decrypt_of_forall_not_seals (not_exists.1 authentic)] at opened
    contradiction

/-! ## Opening any envelope -/

/-- An envelope is refused as not authentic exactly if its box is the box of no plaintext under the
key that the two sides agree on, as one shorter than a tag is.  Otherwise the plaintext is the only
one, and the envelope opens to the message that it holds without its padding, or is refused because
it holds none.  A message comes out only if an encoding of it was sealed, padded so that the last
byte tells the length of the padding.  The cipher has one reason to refuse a box, and there is no
other kind of error than these. -/
theorem decrypt_authentic (envelope : Envelope) (sender : PublicKey) (receiver : PrivateKey) :
    let sealed := SecretBox.encrypt (PrivateKey.agree receiver sender) envelope.nonce
    let opened := envelope.decrypt sender receiver
    (opened = .error .notAuthentic ↔ ∀ padded, sealed padded ≠ envelope.box)
    ∧ (envelope.box.length < 16 → opened = .error .notAuthentic)
    ∧ (∀ padded, sealed padded = envelope.box →
      (∀ other, sealed other = envelope.box → other = padded)
        ∧ opened = (Padding.unpad padded >>= Message.decode)
        ∧ ∀ error, opened = .error error → error.kind = .format ∨ error.kind = .unknownType)
    ∧ (∀ message, opened = .ok message →
      ∃ encoding tail last, sealed (encoding ++ tail) = envelope.box
        ∧ (encoding ++ tail).getLast? = some last ∧ last.toNat = tail.length
        ∧ Message.decode encoding = .ok message)
    ∧ (∀ fault, PublicBox.decrypt receiver sender envelope.nonce envelope.box = .error fault →
      fault = .rejected)
    ∧ ∀ error, opened = .error error →
      error = .notAuthentic ∨ error.kind = .format ∨ error.kind = .unknownType := by
  intro sealed opened
  refine ⟨decrypt_eq_notAuthentic, ?_, ?_, fun _ => exists_seals_of_decrypt,
    fun _ => SecretBox.eq_rejected_of_decrypt, ?_⟩
  · intro short
    exact decrypt_of_forall_not_seals (not_seals_of_lt short)
  · intro padded h
    have authentic : envelope.Seals (PrivateKey.agree receiver sender) padded := h
    refine ⟨?_, authentic.decrypt_eq, fun _ => authentic.kind_of_decrypt⟩
    intro other h'
    exact Seals.unique h' authentic
  · intro error refused
    by_cases authentic : ∃ padded, envelope.Seals (PrivateKey.agree receiver sender) padded
    · obtain ⟨padded, h⟩ := authentic
      exact .inr (h.kind_of_decrypt refused)
    · have same := refused.symm.trans (decrypt_of_forall_not_seals (not_exists.1 authentic))
      exact .inl (Except.error.inj same)

/-- A box of fifteen bytes is not authentic, while a plaintext with an unknown tag is refused for
what it holds. -/
theorem decrypt_authentic_unknown_tag :
    let sender : PublicKey := ⟨List.replicate 32 1, rfl⟩
    let receiver : PrivateKey := ⟨List.replicate 32 2, rfl⟩
    let nonce : Nonce := ⟨Bytes.zeros 24, rfl⟩
    let short : Envelope := ⟨Bytes.zeros 15, nonce, by decide⟩
    let box := SecretBox.encrypt (PrivateKey.agree receiver sender) nonce [0x55, 0x01]
    ∃ small, short.decrypt sender receiver = .error .notAuthentic
      ∧ (⟨box, nonce, small⟩ : Envelope).decrypt sender receiver = .error (.unknownTag 0x55) := by
  intro sender receiver nonce short box
  have small : box.length ≤ maxContentLength := by
    rw [SecretBox.length_encrypt]
    decide
  obtain ⟨_, tooShort, _⟩ := decrypt_authentic short sender receiver
  obtain ⟨_, _, authentic, _⟩ := decrypt_authentic ⟨box, nonce, small⟩ sender receiver
  obtain ⟨_, opened, _⟩ := authentic [0x55, 0x01] rfl
  exact ⟨small, tooShort (by decide), opened⟩

end Envelope

end SealedEnvelope
