import SealedEnvelope.Proofs.Callback.Verification

/-!
# What a signature binds (SPEC_FULL §4.6)

The signed texts are put together without separators.  The participants, the identifier of the
message and the nonce have texts of a fixed length, but the date has not: digits that a signature
covers can pass from the nonce to the date, and as many from the box to the nonce.  The signature
therefore binds all but the place where the date ends.
-/

set_option autoImplicit false

namespace SealedEnvelope

/-- The text of an identity is eight bytes long. -/
theorem Identity.length_encode_text (identity : Identity) :
    (Utf8.encode identity.text).length = 8 := by
  rw [Utf8.encode, Utf8.encodeChars_of_ascii fun _ => identity.lt_of_mem_toList, List.length_map]
  exact identity.length_toList

namespace SignedFields

/-- The texts of fixed length have it. -/
structure Framed (fields : SignedFields) : Prop where
  sender : (Utf8.encode fields.sender).length = 8
  receiver : (Utf8.encode fields.receiver).length = 8
  messageId : (Utf8.encode fields.messageId).length = 16
  nonce : (Utf8.encode fields.nonce).length = 48

theorem signedBytes_eq (fields : SignedFields) :
    fields.signedBytes = Utf8.encode fields.sender ++ (Utf8.encode fields.receiver
      ++ (Utf8.encode fields.messageId ++ (Utf8.encode fields.date ++ (Utf8.encode fields.nonce
        ++ Utf8.encode fields.box)))) := by
  simp [signedBytes, parts]

section Same

variable {left right : SignedFields} (leftFramed : left.Framed) (rightFramed : right.Framed)
  (same : left.signedBytes = right.signedBytes)
include leftFramed rightFramed same

/-- The texts before the date are determined by the signed bytes, and so is the rest as a whole. -/
theorem Framed.front_eq :
    left.sender = right.sender ∧ left.receiver = right.receiver ∧ left.messageId = right.messageId
      ∧ Utf8.encode left.date ++ (Utf8.encode left.nonce ++ Utf8.encode left.box)
        = Utf8.encode right.date ++ (Utf8.encode right.nonce ++ Utf8.encode right.box) := by
  rw [signedBytes_eq, signedBytes_eq] at same
  obtain ⟨sender, same⟩ := List.append_inj same (leftFramed.sender.trans rightFramed.sender.symm)
  obtain ⟨receiver, same⟩ :=
    List.append_inj same (leftFramed.receiver.trans rightFramed.receiver.symm)
  obtain ⟨messageId, rest⟩ :=
    List.append_inj same (leftFramed.messageId.trans rightFramed.messageId.symm)
  exact ⟨Utf8.encode_inj.1 sender, Utf8.encode_inj.1 receiver, Utf8.encode_inj.1 messageId, rest⟩

/-- The texts from the date on are determined as soon as the place is where the date ends. -/
theorem Framed.back_eq
    (length : (Utf8.encode left.date).length = (Utf8.encode right.date).length) :
    left.date = right.date ∧ left.nonce = right.nonce ∧ left.box = right.box := by
  obtain ⟨_, _, _, rest⟩ := leftFramed.front_eq rightFramed same
  obtain ⟨date, rest⟩ := List.append_inj rest length
  obtain ⟨nonce, box⟩ := List.append_inj rest (leftFramed.nonce.trans rightFramed.nonce.symm)
  exact ⟨Utf8.encode_inj.1 date, Utf8.encode_inj.1 nonce, Utf8.encode_inj.1 box⟩

end Same

end SignedFields

namespace Callback

/-- The texts of an accepted callback have the lengths of what they spell. -/
theorem framed_of_ofFields {signed : SignedFields} {nickname : Option String} {callback : Callback}
    (h : ofFields signed nickname = .ok callback) : signed.Framed := by
  obtain ⟨sender, receiver, messageId, _, envelope, _⟩ := ofFields_eq_ok.1 h
  obtain ⟨_, nonce⟩ := Envelope.ofHex_eq_ok.1 envelope
  refine ⟨?_, ?_, Octets.length_of_parseHex messageId, Octets.length_of_parseHex nonce⟩
  · rw [← sender]
    exact callback.sender.length_encode_text
  · rw [← receiver]
    exact callback.receiver.length_encode_text

/-- The callback of a body is made of the fields of the body. -/
theorem ofFields_of_verify {secret body : String} {signed : SignedFields} {mac : String}
    {callback : Callback} (fields : signedFields (Form.decode body) = .ok (signed, mac))
    (accepted : verify secret body = .ok callback) :
    ofFields signed ((Form.decode body).get? "nickname") = .ok callback := by
  obtain ⟨found, foundFields, h⟩ := verifyFields_eq_ok.1 accepted
  rw [fields] at foundFields
  cases foundFields
  exact h

section Same

variable {left right : SignedFields} {leftNickname rightNickname : Option String}
  {leftCallback rightCallback : Callback}
  (leftParts : ofFields left leftNickname = .ok leftCallback)
  (rightParts : ofFields right rightNickname = .ok rightCallback)
  (same : left.signedBytes = right.signedBytes)
include leftParts rightParts same

/-- Callbacks under one signature are about one message between the same participants. -/
theorem front_eq_of_signedBytes_eq :
    leftCallback.sender = rightCallback.sender ∧ leftCallback.receiver = rightCallback.receiver
      ∧ leftCallback.messageId = rightCallback.messageId := by
  obtain ⟨sender, receiver, messageId, _⟩ :=
    (framed_of_ofFields leftParts).front_eq (framed_of_ofFields rightParts) same
  obtain ⟨leftSender, leftReceiver, leftId, _⟩ := ofFields_eq_ok.1 leftParts
  obtain ⟨rightSender, rightReceiver, rightId, _⟩ := ofFields_eq_ok.1 rightParts
  refine ⟨Identity.ext ?_, Identity.ext ?_, ?_⟩
  · rw [leftSender, sender, rightSender]
  · rw [leftReceiver, receiver, rightReceiver]
  · rw [messageId, rightId] at leftId
    exact (Except.ok.inj leftId).symm

/-- Callbacks under one signature whose dates end at the same place have one date and envelope. -/
theorem back_eq_of_signedBytes_eq
    (length : (Utf8.encode left.date).length = (Utf8.encode right.date).length) :
    leftCallback.date = rightCallback.date ∧ leftCallback.envelope = rightCallback.envelope := by
  obtain ⟨date, nonce, box⟩ :=
    (framed_of_ofFields leftParts).back_eq (framed_of_ofFields rightParts) same length
  obtain ⟨_, _, _, leftDate, leftEnvelope, _⟩ := ofFields_eq_ok.1 leftParts
  obtain ⟨_, _, _, rightDate, rightEnvelope, _⟩ := ofFields_eq_ok.1 rightParts
  rw [date, rightDate] at leftDate
  rw [nonce, box, rightEnvelope] at leftEnvelope
  exact ⟨(Except.ok.inj leftDate).symm, (Except.ok.inj leftEnvelope).symm⟩

end Same

/-- Two accepted bodies under one signature have one sender, one receiver and one identifier of the
message, and if their dates are equally long also one date and one envelope. -/
theorem verify_agree_of_signedBytes_eq {secret left right : String}
    {leftSigned rightSigned : SignedFields} {leftMac rightMac : String}
    {leftCallback rightCallback : Callback}
    (leftFields : signedFields (Form.decode left) = .ok (leftSigned, leftMac))
    (rightFields : signedFields (Form.decode right) = .ok (rightSigned, rightMac))
    (leftAccepted : verify secret left = .ok leftCallback)
    (rightAccepted : verify secret right = .ok rightCallback)
    (same : leftSigned.signedBytes = rightSigned.signedBytes) :
    leftCallback.sender = rightCallback.sender ∧ leftCallback.receiver = rightCallback.receiver
      ∧ leftCallback.messageId = rightCallback.messageId
      ∧ ((Utf8.encode leftSigned.date).length = (Utf8.encode rightSigned.date).length →
        leftCallback.date = rightCallback.date
          ∧ leftCallback.envelope = rightCallback.envelope) := by
  have leftParts := ofFields_of_verify leftFields leftAccepted
  have rightParts := ofFields_of_verify rightFields rightAccepted
  obtain ⟨sender, receiver, messageId⟩ := front_eq_of_signedBytes_eq leftParts rightParts same
  refine ⟨sender, receiver, messageId, ?_⟩
  intro length
  exact back_eq_of_signedBytes_eq leftParts rightParts same length

/-- A nickname is not signed, and neither is the order of the fields. -/
theorem verify_agree_of_nickname :
    let callback : Callback :=
      { sender := ⟨"SENDERXY", by decide⟩
        receiver := ⟨"RECEIVER", by decide⟩
        messageId := ⟨Bytes.zeros 8, rfl⟩
        date := ⟨1650000000, by decide, by decide⟩
        envelope := ⟨[1, 2], ⟨Bytes.zeros 24, rfl⟩, by decide⟩
        nickname := none }
    let named : Callback := { callback with nickname := some "three4j" }
    let body := (FormBody.ofPairs (callback.pairs "secret")).text
    let namedBody := (FormBody.ofPairs (named.pairs "secret").reverse).text
    verify "secret" body = .ok callback ∧ verify "secret" namedBody = .ok named
      ∧ callback.date = named.date ∧ callback.envelope = named.envelope := by
  intro callback named body namedBody
  have order := List.Perm.refl (callback.pairs "secret")
  have namedOrder := List.reverse_perm (named.pairs "secret")
  have fields := signedFields_posted order
  have namedFields := signedFields_posted namedOrder
  have accepted : verify "secret" body = .ok callback :=
    verifyFields_eq_ok.2 ⟨_, fields, ofFields_posted order⟩
  have namedAccepted : verify "secret" namedBody = .ok named :=
    verifyFields_eq_ok.2 ⟨_, namedFields, ofFields_posted namedOrder⟩
  obtain ⟨_, _, _, agree⟩ :=
    verify_agree_of_signedBytes_eq fields namedFields accepted namedAccepted rfl
  exact ⟨accepted, namedAccepted, agree rfl⟩

/-- One signature is right for two callbacks with different dates, nonces and boxes: two digits pass
from the nonce to the date, and two from the box to the nonce. -/
theorem signature_of_two_dates :
    let sender : Identity := ⟨"SENDERXY", by decide⟩
    let receiver : Identity := ⟨"RECEIVER", by decide⟩
    let messageId : MessageId := ⟨[0x00, 0x11, 0x22, 0x33, 0x44, 0x55, 0x66, 0x77], rfl⟩
    let early : Callback :=
      { sender, receiver, messageId
        date := ⟨1, by decide, by decide⟩
        envelope := ⟨[0, 1], ⟨0x23 :: Bytes.zeros 23, rfl⟩, by decide⟩
        nickname := none }
    let late : Callback :=
      { sender, receiver, messageId
        date := ⟨123, by decide, by decide⟩
        envelope := ⟨[1], ⟨Bytes.zeros 24, rfl⟩, by decide⟩
        nickname := none }
    let earlyBody := (FormBody.ofPairs (early.pairs "secret")).text
    let lateBody := (FormBody.ofPairs (late.pairs "secret")).text
    verify "secret" earlyBody = .ok early ∧ verify "secret" lateBody = .ok late
      ∧ signedFields (Form.decode earlyBody) = .ok (early.signed, early.signed.mac "secret")
      ∧ signedFields (Form.decode lateBody) = .ok (late.signed, late.signed.mac "secret")
      ∧ early.signed.signedBytes = late.signed.signedBytes
      ∧ early.date ≠ late.date ∧ early.envelope.nonce ≠ late.envelope.nonce
      ∧ early.envelope.box ≠ late.envelope.box := by
  intro sender receiver messageId early late earlyBody lateBody
  have earlyOrder := List.Perm.refl (early.pairs "secret")
  have lateOrder := List.Perm.refl (late.pairs "secret")
  have earlyFields := signedFields_posted earlyOrder
  have lateFields := signedFields_posted lateOrder
  refine ⟨verifyFields_eq_ok.2 ⟨_, earlyFields, ofFields_posted earlyOrder⟩,
    verifyFields_eq_ok.2 ⟨_, lateFields, ofFields_posted lateOrder⟩,
    earlyFields, lateFields, ?_, ?_, ?_, ?_⟩
  · decide +kernel
  · decide
  · decide
  · decide

end Callback

end SealedEnvelope
