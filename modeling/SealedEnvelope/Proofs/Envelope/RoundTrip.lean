import SealedEnvelope.Proofs.Form.ReadBack
import SealedEnvelope.Proofs.Message.RoundTrip
import SealedEnvelope.Submission

/-!
# Envelopes opened (SPEC_FULL §4.4, §12)

What was sealed is found again, by the sender with its own key and by the receiver if both agree on
a key, also after the envelope has travelled as text.
-/

set_option autoImplicit false

namespace SealedEnvelope

namespace Envelope

variable {message : Message} {sender : PrivateKey} {receiver : PublicKey} {limit : Nat}
  {source : RandomSource} {envelope : Envelope}

theorem make_eq_ok {box : Bytes} {nonce : Nonce} :
    make box nonce = .ok envelope ↔ box = envelope.box ∧ nonce = envelope.nonce := by
  obtain ⟨box', nonce', small⟩ := envelope
  unfold make
  constructor
  · intro h
    split at h
    · cases h
      exact ⟨rfl, rfl⟩
    · contradiction
  · rintro ⟨rfl, rfl⟩
    exact dif_pos small

/-! ## Sealing -/

/-- A message is sealed exactly if its padded encoding leaves the tag room below the limit, and then
in the box of that encoding under the nonce that is drawn next. -/
theorem encrypt_eq_ok :
    (encrypt message sender receiver limit source).1 = .ok envelope
      ↔ (Padding.pad message.encode source).1.length + SecretBox.tagSize
            ≤ min limit maxContentLength
        ∧ SecretBox.encrypt (PrivateKey.agree sender receiver) envelope.nonce
            (Padding.pad message.encode source).1 = envelope.box
        ∧ ((Padding.pad message.encode source).2.drawOctets .nonce).1 = envelope.nonce := by
  unfold encrypt PublicBox.encrypt
  simp only
  constructor
  · intro h
    split at h
    · contradiction
    · rename_i fits
      obtain ⟨box, nonce⟩ := make_eq_ok.1 h
      rw [← nonce]
      exact ⟨Nat.not_lt.1 fits, box, rfl⟩
  · rintro ⟨fits, box, nonce⟩
    rw [if_neg (Nat.not_lt.2 fits), nonce]
    exact make_eq_ok.2 ⟨box, rfl⟩

/-- A message that fits is sealed in a box as long as its padded encoding and the tag, under the
nonce that follows the padding in the source. -/
theorem encrypt_of_le (sender : PrivateKey) (receiver : PublicKey)
    (fits : (Padding.pad message.encode source).1.length + SecretBox.tagSize
      ≤ min limit maxContentLength) :
    ∃ envelope, encrypt message sender receiver limit source
        = (.ok envelope, ((Padding.pad message.encode source).2.drawOctets .nonce).2)
      ∧ envelope.box.length = (Padding.pad message.encode source).1.length + SecretBox.tagSize
      ∧ envelope.nonce = ((Padding.pad message.encode source).2.drawOctets .nonce).1 := by
  let padded := (Padding.pad message.encode source).1
  let nonce := ((Padding.pad message.encode source).2.drawOctets .nonce).1
  let box := SecretBox.encrypt (PrivateKey.agree sender receiver) nonce padded
  have length : box.length = padded.length + SecretBox.tagSize := SecretBox.length_encrypt _ _ _
  have small : box.length ≤ maxContentLength := by
    rw [length]
    exact Nat.le_trans fits (Nat.min_le_right _ _)
  have made : make box nonce = .ok ⟨box, nonce, small⟩ := dif_pos small
  refine ⟨⟨box, nonce, small⟩, ?_, length, rfl⟩
  unfold encrypt
  simp only [if_neg (Nat.not_lt.2 fits)]
  exact congrArg (·, _) made

/-- A message is sealed whatever the padding, if the longest padding leaves the tag room. -/
theorem exists_encrypt_eq_ok (message : Message) (sender : PrivateKey) (receiver : PublicKey)
    (source : RandomSource)
    (room : message.encode.length + Padding.most + SecretBox.tagSize ≤ min limit maxContentLength) :
    ∃ envelope, (encrypt message sender receiver limit source).1 = .ok envelope := by
  have padded := Padding.length_pad_le message.encode source
  have fits : (Padding.pad message.encode source).1.length + SecretBox.tagSize
      ≤ min limit maxContentLength :=
    Nat.le_trans (Nat.add_le_add_right padded _) room
  obtain ⟨envelope, eq, _⟩ := encrypt_of_le sender receiver fits
  exact ⟨envelope, congrArg Prod.fst eq⟩

/-! ## Opening -/

/-- Whoever has the key that a message was sealed under finds it again. -/
theorem decrypt_of_agree {opener : PrivateKey} {other : PublicKey}
    (roundTrips : Message.decode message.encode = .ok message)
    (sealed : (encrypt message sender receiver limit source).1 = .ok envelope)
    (same : PrivateKey.agree opener other = PrivateKey.agree sender receiver) :
    envelope.decrypt other opener = .ok message := by
  obtain ⟨_, box, _⟩ := encrypt_eq_ok.1 sealed
  have opened : PublicBox.decrypt opener other envelope.nonce envelope.box
      = .ok (Padding.pad message.encode source).1 := by
    rw [PublicBox.decrypt, same, ← box, SecretBox.decrypt_encrypt]
  rw [decrypt_of_opened opened, Padding.unpad_pad]
  exact roundTrips

/-! ## Envelopes as text -/

/-- Two texts spell an envelope exactly if one spells its box and the other its nonce. -/
theorem ofHex_eq_ok {box nonce : String} :
    ofHex box nonce = .ok envelope
      ↔ Hex.decode box = .ok envelope.box
        ∧ Octets.parseHex .nonce .nonce nonce = .ok envelope.nonce := by
  unfold ofHex
  cases Hex.decode box with
  | error fault => simp
  | ok box =>
    cases Octets.parseHex .nonce .nonce nonce with
    | error error => simp
    | ok nonce =>
      simp only [Except.ok.injEq]
      exact make_eq_ok

/-- An envelope is read back from its hexadecimal texts. -/
theorem ofHex_hex (envelope : Envelope) :
    ofHex envelope.boxHex envelope.nonceHex = .ok envelope :=
  ofHex_eq_ok.2 ⟨Hex.decode_encode envelope.box, Octets.parseHex_toHex _ envelope.nonce⟩

end Envelope

/-! ## Submissions -/

namespace Submission

theorem nodup_fields (submission : Submission) : (submission.fields.map Prod.fst).Nodup := by
  have names : submission.fields.map Prod.fst = ["from", "secret", "to", "box", "nonce"] := rfl
  rw [names]
  decide

/-- Every field of a submission is found in the body of its post. -/
theorem get?_decode_body (submission : Submission) {key value : String}
    (mem : (key, value) ∈ submission.fields) :
    (Form.decode submission.body.text).get? key = some value :=
  Form.get?_decode_text submission.nodup_fields mem

end Submission

/-! ## From end to end -/

namespace KeyPair

/-- Two pairs reach the same point from both sides. -/
def Commute (left right : KeyPair) : Prop :=
  Curve25519.agree left.privateKey.toList right.publicKey.toList
    = Curve25519.agree right.privateKey.toList left.publicKey.toList

instance (left right : KeyPair) : Decidable (Commute left right) :=
  inferInstanceAs (Decidable (Curve25519.agree left.privateKey.toList right.publicKey.toList
    = Curve25519.agree right.privateKey.toList left.publicKey.toList))

/-- Two pairs that reach the same point agree on a key. -/
theorem Commute.agree_eq {left right : KeyPair} (commute : left.Commute right) :
    PrivateKey.agree right.privateKey left.publicKey
      = PrivateKey.agree left.privateKey right.publicKey := by
  apply Octets.ext
  unfold PrivateKey.agree
  rw [commute]

end KeyPair

namespace Envelope

/-- A message that its encoding carries comes out of the envelope it was sealed in: for the sender,
who opens it with its own key, without any condition, and for the receiver if the two pairs reach
the same point.  The envelope is what its hexadecimal texts spell, and what the box and the nonce
spell that are found in the body of a post. -/
theorem opens_of_encrypt_eq_ok {message : Message} {left right : KeyPair} {limit : Nat}
    {source : RandomSource} {envelope : Envelope}
    (roundTrips : Message.decode message.encode = .ok message)
    (sealed : (encrypt message left.privateKey right.publicKey limit source).1 = .ok envelope) :
    envelope.decrypt right.publicKey left.privateKey = .ok message
      ∧ (left.Commute right → envelope.decrypt left.publicKey right.privateKey = .ok message)
      ∧ ofHex envelope.boxHex envelope.nonceHex = .ok envelope
      ∧ ∀ (sender receiver : Identity) (secret : String),
        let fields := Form.decode (Submission.body ⟨sender, secret, receiver, envelope⟩).text
        ∃ box nonce, fields.get? "box" = some box ∧ fields.get? "nonce" = some nonce
          ∧ ofHex box nonce = .ok envelope := by
  refine ⟨?_, ?_, envelope.ofHex_hex, ?_⟩
  · exact decrypt_of_agree roundTrips sealed rfl
  · intro commute
    exact decrypt_of_agree roundTrips sealed commute.agree_eq
  · intro sender receiver secret fields
    refine ⟨envelope.boxHex, envelope.nonceHex, ?_, ?_, envelope.ofHex_hex⟩
    · exact Submission.get?_decode_body _ (by simp [Submission.fields])
    · exact Submission.get?_decode_body _ (by simp [Submission.fields])

/-- A text that one of two participants seals for the other is read by both. -/
theorem opens_greeting :
    let left := KeyPair.ofPrivateKey ⟨List.replicate 32 1, rfl⟩
    let right := KeyPair.ofPrivateKey ⟨List.replicate 32 2, rfl⟩
    ∃ envelope,
      (encrypt (.text "Grüße") left.privateKey right.publicKey 4000 ⟨[]⟩).1 = .ok envelope
      ∧ envelope.decrypt right.publicKey left.privateKey = .ok (.text "Grüße")
      ∧ envelope.decrypt left.publicKey right.privateKey = .ok (.text "Grüße") := by
  intro left right
  have commute : left.Commute right := by decide +kernel
  have roundTrips : Message.decode (Message.text "Grüße").encode = .ok (.text "Grüße") :=
    Message.decode_encode_received (.text "Grüße")
  obtain ⟨envelope, sealed⟩ := exists_encrypt_eq_ok (.text "Grüße") left.privateKey
    right.publicKey ⟨[]⟩ (by decide : _ ≤ min 4000 maxContentLength)
  obtain ⟨own, other, _⟩ := opens_of_encrypt_eq_ok roundTrips sealed
  exact ⟨envelope, sealed, own, other commute⟩

end Envelope

end SealedEnvelope
