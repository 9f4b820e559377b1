import SealedEnvelope.Proofs.Callback.Binding

/-!
# How far a signature binds (SPEC_FULL §4.6)

Of the signed texts only the date and the box have no fixed length, so what the one is longer in one
of two bodies under a signature, the other is shorter.  Two accepted bodies under one signature are
therefore about one date and one envelope exactly if their dates are equally long, and otherwise
about boxes of different sizes.
-/

set_option autoImplicit false

namespace SealedEnvelope

/-! ## Texts of dates -/

namespace Decimal

theorem isDigit_of_natural? {text : List Char} {n : Nat} (h : natural? text = some n) {c : Char}
    (mem : c ∈ text) : isDigit c = true := by
  unfold natural? at h
  split at h
  · contradiction
  · rename_i digits
    simp only [Bool.or_eq_true, Bool.not_eq_true', not_or, Bool.not_eq_false] at digits
    exact List.all_eq_true.1 digits.2 c mem

theorem lt_of_natural? {text : List Char} {n : Nat} (h : natural? text = some n) {c : Char}
    (mem : c ∈ text) : c.toNat < 0x80 := by
  have bounds := bounds_of_isDigit (isDigit_of_natural? h mem)
  omega

/-- A text that stands for an integer is of ASCII: a sign at most, and digits. -/
theorem lt_of_integer? {text : List Char} {i : Int} (h : integer? text = some i) {c : Char}
    (mem : c ∈ text) : c.toNat < 0x80 := by
  unfold integer? at h
  split at h
  all_goals
    obtain ⟨_, number, _⟩ := Option.map_eq_some_iff.1 h
    obtain ⟨_, digits, _⟩ := Option.bind_eq_some_iff.1 number
  · exact List.forall_mem_cons.2 ⟨by decide, fun _ => lt_of_natural? digits⟩ c mem
  · exact List.forall_mem_cons.2 ⟨by decide, fun _ => lt_of_natural? digits⟩ c mem
  · exact lt_of_natural? digits mem

end Decimal

/-- The text of a time has one byte for each character. -/
theorem Timestamp.length_encode_of_parse {text : String} {time : Timestamp}
    (h : Timestamp.parse text = .ok time) : (Utf8.encode text).length = text.length := by
  unfold Timestamp.parse at h
  split at h
  · contradiction
  · rename_i seconds number
    have ascii : ∀ c ∈ text.toList, c.toNat < 0x80 := fun _ => Decimal.lt_of_integer? number
    rw [Utf8.encode, Utf8.encodeChars_of_ascii ascii, List.length_map, String.length_toList]

/-! ## Lengths under one signature -/

/-- What the date is longer, the box is shorter. -/
theorem SignedFields.Framed.length_eq {left right : SignedFields} (leftFramed : left.Framed)
    (rightFramed : right.Framed) (same : left.signedBytes = right.signedBytes) :
    (Utf8.encode left.date).length + (Utf8.encode left.box).length
      = (Utf8.encode right.date).length + (Utf8.encode right.box).length := by
  obtain ⟨_, _, _, rest⟩ := leftFramed.front_eq rightFramed same
  have lengths := congrArg List.length rest
  have leftNonce := leftFramed.nonce
  have rightNonce := rightFramed.nonce
  simp only [List.length_append] at lengths
  omega

namespace Callback

section Same

variable {left right : SignedFields} {leftNickname rightNickname : Option String}
  {leftCallback rightCallback : Callback}
  (leftParts : ofFields left leftNickname = .ok leftCallback)
  (rightParts : ofFields right rightNickname = .ok rightCallback)
  (same : left.signedBytes = right.signedBytes)
include leftParts rightParts same

/-- Two characters of the date make up for one byte of the box. -/
theorem length_date_add_length_box :
    left.date.length + 2 * leftCallback.envelope.box.length
      = right.date.length + 2 * rightCallback.envelope.box.length := by
  obtain ⟨_, _, _, leftDate, leftEnvelope, _⟩ := ofFields_eq_ok.1 leftParts
  obtain ⟨_, _, _, rightDate, rightEnvelope, _⟩ := ofFields_eq_ok.1 rightParts
  have leftBox := Hex.length_of_decode (Envelope.ofHex_eq_ok.1 leftEnvelope).1
  have rightBox := Hex.length_of_decode (Envelope.ofHex_eq_ok.1 rightEnvelope).1
  have texts := (framed_of_ofFields leftParts).length_eq (framed_of_ofFields rightParts) same
  rw [Timestamp.length_encode_of_parse leftDate, Timestamp.length_encode_of_parse rightDate,
    leftBox, rightBox] at texts
  exact texts

/-- Callbacks under one signature have one date and one envelope exactly if their dates end at the
same place. -/
theorem date_and_envelope_eq_iff :
    leftCallback.date = rightCallback.date ∧ leftCallback.envelope = rightCallback.envelope
      ↔ left.date.length = right.date.length := by
  constructor
  · rintro ⟨_, envelope⟩
    have lengths := length_date_add_length_box leftParts rightParts same
    rw [envelope] at lengths
    omega
  · intro length
    obtain ⟨_, _, _, leftDate, _⟩ := ofFields_eq_ok.1 leftParts
    obtain ⟨_, _, _, rightDate, _⟩ := ofFields_eq_ok.1 rightParts
    apply back_eq_of_signedBytes_eq leftParts rightParts same
    rw [Timestamp.length_encode_of_parse leftDate, Timestamp.length_encode_of_parse rightDate,
      length]

end Same

/-- Two accepted bodies under one signature have one sender, one receiver and one identifier of the
message.  They have one date and one envelope exactly if the texts of their dates are equally long,
and boxes of different sizes otherwise. -/
theorem verify_agree_iff_length_eq {secret left right : String}
    {leftSigned rightSigned : SignedFields} {leftMac rightMac : String}
    {leftCallback rightCallback : Callback}
    (leftFields : signedFields (Form.decode left) = .ok (leftSigned, leftMac))
    (rightFields : signedFields (Form.decode right) = .ok (rightSigned, rightMac))
    (leftAccepted : verify secret left = .ok leftCallback)
    (rightAccepted : verify secret right = .ok rightCallback)
    (same : leftSigned.signedBytes = rightSigned.signedBytes) :
    leftCallback.sender = rightCallback.sender ∧ leftCallback.receiver = rightCallback.receiver
      ∧ leftCallback.messageId = rightCallback.messageId
      ∧ (leftCallback.date = rightCallback.date ∧ leftCallback.envelope = rightCallback.envelope
        ↔ leftSigned.date.length = rightSigned.date.length)
      ∧ (leftSigned.date.length ≠ rightSigned.date.length →
        leftCallback.envelope.box.length ≠ rightCallback.envelope.box.length) := by
  have leftParts := ofFields_of_verify leftFields leftAccepted
  have rightParts := ofFields_of_verify rightFields rightAccepted
  obtain ⟨sender, receiver, messageId⟩ := front_eq_of_signedBytes_eq leftParts rightParts same
  have lengths := length_date_add_length_box leftParts rightParts same
  refine ⟨sender, receiver, messageId, date_and_envelope_eq_iff leftParts rightParts same, ?_⟩
  intro dates boxes
  rw [boxes] at lengths
  exact dates (Nat.add_right_cancel lengths)

/-- Two digits of a nonce read as the end of a date, and two of the box as the end of the nonce: the
signature is right for either reading, and the boxes differ in size. -/
theorem verify_agree_iff_length_eq_shifted :
    let sender : Identity := ⟨"SENDERXY", by decide⟩
    let receiver : Identity := ⟨"RECEIVER", by decide⟩
    let messageId : MessageId := ⟨Bytes.zeros 8, rfl⟩
    let early : Callback :=
      { sender, receiver, messageId
        date := ⟨16, by decide, by decide⟩
        envelope := ⟨[7, 8], ⟨0x50 :: Bytes.zeros 23, rfl⟩, by decide⟩
        nickname := none }
    let late : Callback :=
      { sender, receiver, messageId
        date := ⟨1650, by decide, by decide⟩
        envelope := ⟨[8], ⟨Bytes.zeros 23 ++ [7], rfl⟩, by decide⟩
        nickname := some "three4j" }
    let earlyBody := (FormBody.ofPairs (early.pairs "secret")).text
    let lateBody := (FormBody.ofPairs (late.pairs "secret").reverse).text
    verify "secret" earlyBody = .ok early ∧ verify "secret" lateBody = .ok late
      ∧ early.signed.signedBytes = late.signed.signedBytes
      ∧ early.messageId = late.messageId
      ∧ ¬ (early.date = late.date ∧ early.envelope = late.envelope)
      ∧ early.envelope.box.length ≠ late.envelope.box.length := by
  intro sender receiver messageId early late earlyBody lateBody
  have earlyOrder := List.Perm.refl (early.pairs "secret")
  have lateOrder := List.reverse_perm (late.pairs "secret")
  have earlyFields := signedFields_posted earlyOrder
  have lateFields := signedFields_posted lateOrder
  have earlyAccepted : verify "secret" earlyBody = .ok early :=
    verifyFields_eq_ok.2 ⟨_, earlyFields, ofFields_posted earlyOrder⟩
  have lateAccepted : verify "secret" lateBody = .ok late :=
    verifyFields_eq_ok.2 ⟨_, lateFields, ofFields_posted lateOrder⟩
  have same : early.signed.signedBytes = late.signed.signedBytes := by decide +kernel
  have longer : early.signed.date.length ≠ late.signed.date.length := by decide +kernel
  obtain ⟨_, _, messageIds, agree, boxes⟩ :=
    verify_agree_iff_length_eq earlyFields lateFields earlyAccepted lateAccepted same
  exact ⟨earlyAccepted, lateAccepted, same, messageIds, fun h => longer (agree.1 h), boxes longer⟩

end Callback

end SealedEnvelope
