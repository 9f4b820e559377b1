import SealedEnvelope.Cipher.SecretBox

/-!
# What a secret box opens to (SPEC_FULL §2)

A box is a tag in front of a ciphertext, both of one stream of bytes: the tag is keyed with its
first thirty-two bytes, and the plaintext is hidden by those that follow, across the ends of blocks.
A box opens to what was sealed in it; no other bytes open to the same, and none that differ from a
box in the tag alone open at all.
-/

set_option autoImplicit false

namespace SealedEnvelope

namespace Salsa20

/-- A byte of consecutive blocks lies in the block that its index tells. -/
theorem getElem?_blocksFrom {key nonce : Bytes} {counter count index : Nat}
    (lt : index < 64 * count) :
    (blocksFrom key nonce counter count)[index]?
      = (block key (nonce ++ Bytes.ofNatLittleEndian 8 (counter + index / 64)))[index % 64]? := by
  induction count generalizing counter index with
  | zero => contradiction
  | succ count ih =>
    rw [blocksFrom]
    by_cases first : index < 64
    · rw [List.getElem?_append_left (by rw [length_block]; exact first), Nat.div_eq_of_lt first,
        Nat.mod_eq_of_lt first, Nat.add_zero]
    · rw [List.getElem?_append_right (by rw [length_block]; omega), length_block,
        ih (by omega)]
      have number : counter + 1 + (index - 64) / 64 = counter + index / 64 := by omega
      have place : (index - 64) % 64 = index % 64 := by omega
      rw [number, place]

end Salsa20

namespace SecretBox

variable {key : SymmetricKey} {nonce : Nonce} {box plaintext : Bytes}

/-! ## The stream -/

/-- The byte of the stream with a given index: each block gives sixty-four, and the number of the
block stands where the nonce of XSalsa20 ends. -/
def streamByte (key : SymmetricKey) (nonce : Nonce) (index : Nat) : UInt8 :=
  (Salsa20.block (Salsa20.deriveKey key.toList (nonce.toList.take 16))
    (nonce.toList.drop 16 ++ Bytes.ofNatLittleEndian 8 (index / 64))).getD (index % 64) 0

theorem getElem?_stream {length index : Nat} (lt : index < length) :
    (Salsa20.stream key.toList nonce.toList length)[index]?
      = some (streamByte key nonce index) := by
  have enough : index < 64 * (length / 64 + 1) := by omega
  have inside (input : Bytes) : index % 64
      < (Salsa20.block (Salsa20.deriveKey key.toList (nonce.toList.take 16)) input).length := by
    rw [Salsa20.length_block]
    exact Nat.mod_lt index (by decide)
  rw [Salsa20.stream, Salsa20.getElem?_blocksFrom enough, Nat.zero_add, streamByte,
    List.getD_eq_getElem?_getD, List.getElem?_eq_getElem (inside _), Option.getD_some]

/-- The key of the tag is the beginning of the stream. -/
theorem tagKey_eq (key : SymmetricKey) (nonce : Nonce) (length : Nat) :
    (masks key nonce length).1 = (List.range 32).map (streamByte key nonce) := by
  refine List.ext_getElem? fun index => ?_
  rw [masks, List.getElem?_map]
  by_cases inside : index < 32
  · rw [List.getElem?_take_of_lt inside, getElem?_stream (by omega), List.getElem?_range inside]
    rfl
  · rw [List.getElem?_eq_none (by rw [List.length_take]; omega),
      List.getElem?_eq_none (by rw [List.length_range]; omega)]
    rfl

/-- The plaintext is hidden by the bytes that follow. -/
theorem xor_masks_eq (key : SymmetricKey) (nonce : Nonce) (plaintext : Bytes) :
    Bytes.xor plaintext (masks key nonce plaintext.length).2
      = plaintext.mapIdx fun index byte => byte ^^^ streamByte key nonce (32 + index) := by
  refine List.ext_getElem? fun index => ?_
  rw [Bytes.xor, List.getElem?_zipWith, List.getElem?_mapIdx, masks, List.getElem?_drop]
  by_cases inside : index < plaintext.length
  · rw [getElem?_stream (by omega), List.getElem?_eq_getElem inside]
    rfl
  · rw [List.getElem?_eq_none (by omega)]
    rfl

/-- The ciphertext of a plaintext. -/
def ciphertext (key : SymmetricKey) (nonce : Nonce) (plaintext : Bytes) : Bytes :=
  plaintext.mapIdx fun index byte => byte ^^^ streamByte key nonce (32 + index)

/-- The tag of a ciphertext. -/
def tagOf (key : SymmetricKey) (nonce : Nonce) (ciphertext : Bytes) : Bytes :=
  Poly1305.tag ((List.range 32).map (streamByte key nonce)) ciphertext

theorem encrypt_eq (key : SymmetricKey) (nonce : Nonce) (plaintext : Bytes) :
    encrypt key nonce plaintext
      = tagOf key nonce (ciphertext key nonce plaintext) ++ ciphertext key nonce plaintext := by
  unfold encrypt
  simp only [xor_masks_eq, tagKey_eq]
  rfl

/-! ## Other bytes -/

/-- Bytes that open are the tag of what follows it, and what follows it. -/
theorem eq_tagOf_append_drop (opened : decrypt key nonce box = .ok plaintext) :
    box = tagOf key nonce (box.drop tagSize) ++ box.drop tagSize := by
  have sealed : box = tagOf key nonce (ciphertext key nonce plaintext)
      ++ ciphertext key nonce plaintext :=
    (eq_encrypt_of_decrypt opened).trans (encrypt_eq key nonce plaintext)
  have hidden : box.drop tagSize = ciphertext key nonce plaintext := by
    rw [sealed]
    exact List.drop_left' (Poly1305.length_tag _ _)
  rw [hidden]
  exact sealed

/-- Two boxes that open to the same plaintext are the same. -/
theorem eq_of_decrypt_eq {left right : Bytes} (first : decrypt key nonce left = .ok plaintext)
    (second : decrypt key nonce right = .ok plaintext) : left = right :=
  (eq_encrypt_of_decrypt first).trans (eq_encrypt_of_decrypt second).symm

/-- Bytes are refused if they differ from a box in the tag alone. -/
theorem decrypt_of_other_tag {other : Bytes} (opened : decrypt key nonce box = .ok plaintext)
    (rest : other.drop tagSize = box.drop tagSize) (ne : other ≠ box) :
    decrypt key nonce other = .error .rejected := by
  cases found : decrypt key nonce other with
  | error error => rw [eq_rejected_of_decrypt found]
  | ok plaintext' =>
    have same : other = box := by
      rw [eq_tagOf_append_drop found, rest]
      exact (eq_tagOf_append_drop opened).symm
    exact absurd same ne

theorem decrypt_of_lt (short : box.length < tagSize) :
    decrypt key nonce box = .error .rejected := by
  rw [decrypt, if_pos short]

/-- A box holds sixteen bytes more than its plaintext: the tag of the ciphertext and the ciphertext,
each byte of it hidden by its own byte of the stream.  It opens to the plaintext, and what opens to
a plaintext is its box.  So different bytes never open to the same plaintext, bytes that differ from
a box in the tag alone are refused, and so are bytes too short for a tag. -/
theorem decrypt_exactly (key : SymmetricKey) (nonce : Nonce) :
    (∀ plaintext, (encrypt key nonce plaintext).length = plaintext.length + 16
      ∧ encrypt key nonce plaintext
        = tagOf key nonce (ciphertext key nonce plaintext) ++ ciphertext key nonce plaintext
      ∧ decrypt key nonce (encrypt key nonce plaintext) = .ok plaintext)
    ∧ (∀ box plaintext, decrypt key nonce box = .ok plaintext →
      box = encrypt key nonce plaintext)
    ∧ (∀ left right plaintext, left ≠ right → decrypt key nonce left = .ok plaintext →
      decrypt key nonce right ≠ .ok plaintext)
    ∧ (∀ box other plaintext, decrypt key nonce box = .ok plaintext →
      other.drop 16 = box.drop 16 → other ≠ box → decrypt key nonce other = .error .rejected)
    ∧ ∀ box, box.length < 16 → decrypt key nonce box = .error .rejected := by
  refine ⟨fun plaintext => ⟨length_encrypt key nonce plaintext, encrypt_eq key nonce plaintext,
    decrypt_encrypt key nonce plaintext⟩, fun box plaintext => eq_encrypt_of_decrypt, ?_, ?_, ?_⟩
  · intro left right plaintext ne first second
    exact ne (eq_of_decrypt_eq first second)
  · intro box other plaintext opened rest ne
    exact decrypt_of_other_tag opened rest ne
  · intro box short
    exact decrypt_of_lt short

/-- A plaintext that one byte of the second block hides, the box of it, and what comes of changing
the first byte of the tag, of moving the tag and of a part of the tag alone. -/
theorem decrypt_exactly_two_blocks :
    let key : SymmetricKey := ⟨List.replicate 32 1, rfl⟩
    let nonce : Nonce := ⟨List.replicate 24 2, rfl⟩
    let plaintext : Bytes := List.replicate 33 0x61
    let tag : Bytes := [114, 195, 188, 155, 95, 195, 156, 78, 163, 216, 165, 170, 159, 44, 201, 126]
    let hidden : Bytes := [156, 4, 191, 156, 31, 91, 179, 44, 1, 28, 214, 159, 57, 39, 220, 207,
      201, 55, 123, 239, 148, 201, 49, 10, 33, 245, 240, 192, 94, 229, 185, 18, 206]
    decrypt key nonce (tag ++ hidden) = .ok plaintext
      ∧ tag ++ hidden = encrypt key nonce plaintext
      ∧ decrypt key nonce (hidden ++ tag) ≠ .ok plaintext
      ∧ decrypt key nonce (0 :: tag.tail ++ hidden) = .error .rejected
      ∧ decrypt key nonce tag.tail = .error .rejected := by
  intro key nonce plaintext tag hidden
  obtain ⟨_, holds, others, changed, short⟩ := decrypt_exactly key nonce
  have opened : decrypt key nonce (tag ++ hidden) = .ok plaintext :=
    decrypt_eq_ok.2 (by decide +kernel : encrypt key nonce plaintext = tag ++ hidden)
  exact ⟨opened, holds _ _ opened, others _ _ _ (by decide) opened,
    changed _ _ _ opened rfl (by decide), short _ (by decide)⟩

end SecretBox

end SealedEnvelope
