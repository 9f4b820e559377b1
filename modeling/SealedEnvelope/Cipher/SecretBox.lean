import SealedEnvelope.Cipher.Salsa20
import SealedEnvelope.Cipher.Poly1305
import SealedEnvelope.Cipher.Error

/-!
# Secret boxes (SPEC_FULL §2)

Authenticated encryption under a key that both sides know: XSalsa20 hides the plaintext, and a
Poly1305 tag in front of the ciphertext is keyed with the first half of the first block.  A box
opens to what was sealed in it, and to nothing else.
-/

set_option autoImplicit false

namespace SealedEnvelope

namespace SecretBox

/-- The number of bytes of a tag. -/
def tagSize : Nat := 16

/-- The key of the tag and the bytes that hide a plaintext of `length` bytes. -/
def masks (key : SymmetricKey) (nonce : Nonce) (length : Nat) : Bytes × Bytes :=
  let stream := Salsa20.stream key.toList nonce.toList (32 + length)
  (stream.take 32, stream.drop 32)

/-- The box of a plaintext: its tag, then its ciphertext. -/
def encrypt (key : SymmetricKey) (nonce : Nonce) (plaintext : Bytes) : Bytes :=
  let (tagKey, mask) := masks key nonce plaintext.length
  let ciphertext := Bytes.xor plaintext mask
  Poly1305.tag tagKey ciphertext ++ ciphertext

/-- The plaintext of a box.  It is looked at only if the tag is right. -/
def decrypt (key : SymmetricKey) (nonce : Nonce) (box : Bytes) : Except CipherError Bytes :=
  if box.length < tagSize then .error .rejected
  else
    let ciphertext := box.drop tagSize
    let (tagKey, mask) := masks key nonce ciphertext.length
    if box.take tagSize = Poly1305.tag tagKey ciphertext then .ok (Bytes.xor ciphertext mask)
    else .error .rejected

/-! ## Opening what was sealed -/

/-- There are bytes enough to hide a plaintext of the length they were made for. -/
theorem le_length_masks (key : SymmetricKey) (nonce : Nonce) (length : Nat) :
    length ≤ (masks key nonce length).2.length := by
  have := Salsa20.le_length_stream key.toList nonce.toList (32 + length)
  rw [masks, List.length_drop (i := 32)]
  omega

theorem length_xor_masks (key : SymmetricKey) (nonce : Nonce) (bytes : Bytes) :
    (Bytes.xor bytes (masks key nonce bytes.length).2).length = bytes.length := by
  have := le_length_masks key nonce bytes.length
  rw [Bytes.length_xor]
  omega

@[simp] theorem length_encrypt (key : SymmetricKey) (nonce : Nonce) (plaintext : Bytes) :
    (encrypt key nonce plaintext).length = plaintext.length + tagSize := by
  rw [encrypt, List.length_append, Poly1305.length_tag, length_xor_masks, Nat.add_comm]
  rfl

theorem decrypt_encrypt (key : SymmetricKey) (nonce : Nonce) (plaintext : Bytes) :
    decrypt key nonce (encrypt key nonce plaintext) = .ok plaintext := by
  have tag := Poly1305.length_tag (masks key nonce plaintext.length).1
    (Bytes.xor plaintext (masks key nonce plaintext.length).2)
  have drop : (encrypt key nonce plaintext).drop tagSize
      = Bytes.xor plaintext (masks key nonce plaintext.length).2 :=
    List.drop_left' tag
  have take : (encrypt key nonce plaintext).take tagSize
      = Poly1305.tag (masks key nonce plaintext.length).1
          (Bytes.xor plaintext (masks key nonce plaintext.length).2) :=
    List.take_left' tag
  rw [decrypt, if_neg (by rw [length_encrypt]; omega)]
  simp only [drop, take, length_xor_masks, if_true]
  rw [Bytes.xor_xor _ _ (le_length_masks key nonce plaintext.length)]

/-- A box that opens is the box of what it opens to. -/
theorem eq_encrypt_of_decrypt {key : SymmetricKey} {nonce : Nonce} {box plaintext : Bytes}
    (h : decrypt key nonce box = .ok plaintext) : box = encrypt key nonce plaintext := by
  simp only [decrypt] at h
  split at h
  · contradiction
  · split at h
    · rename_i tag
      cases h
      simp only [encrypt, length_xor_masks]
      rw [Bytes.xor_xor _ _ (le_length_masks key nonce (box.drop tagSize).length), ← tag,
        List.take_append_drop]
    · contradiction

/-! ## What a box holds -/

variable {key : SymmetricKey} {nonce : Nonce} {box plaintext : Bytes}

theorem decrypt_eq_ok :
    decrypt key nonce box = .ok plaintext ↔ encrypt key nonce plaintext = box := by
  constructor
  · intro h
    exact (eq_encrypt_of_decrypt h).symm
  · rintro rfl
    exact decrypt_encrypt key nonce plaintext

/-- Two plaintexts have different boxes. -/
theorem encrypt_inj {left right : Bytes} :
    encrypt key nonce left = encrypt key nonce right ↔ left = right := by
  constructor
  · intro same
    have opened := decrypt_eq_ok.2 same
    rw [decrypt_encrypt] at opened
    exact (Except.ok.inj opened).symm
  · intro same
    rw [same]

/-- The one way in which a box is refused. -/
theorem eq_rejected_of_decrypt {error : CipherError} (h : decrypt key nonce box = .error error) :
    error = .rejected := by
  simp only [decrypt] at h
  split at h
  · cases h
    rfl
  · split at h
    · contradiction
    · cases h
      rfl

/-- A box is refused exactly if nothing was sealed in it. -/
theorem decrypt_eq_rejected :
    decrypt key nonce box = .error .rejected
      ↔ ∀ plaintext, encrypt key nonce plaintext ≠ box := by
  constructor
  · intro h plaintext sealed
    rw [decrypt_eq_ok.2 sealed] at h
    contradiction
  · intro none
    cases h : decrypt key nonce box with
    | ok plaintext => exact absurd (decrypt_eq_ok.1 h) (none plaintext)
    | error error => rw [eq_rejected_of_decrypt h]

end SecretBox

end SealedEnvelope
