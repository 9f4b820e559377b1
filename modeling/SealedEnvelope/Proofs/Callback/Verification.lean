import SealedEnvelope.Callback
import SealedEnvelope.Proofs.Envelope.RoundTrip

/-!
# Callbacks verified (SPEC_FULL §4.6)

What a body has to be for its callback to be accepted, the signature that it has to have, and that
the body of every genuine callback is so, whatever the order of its fields.
-/

set_option autoImplicit false

namespace SealedEnvelope

/-! ## The parts of a callback -/

/-- A time is read back from its decimal text. -/
theorem Timestamp.parse_text (time : Timestamp) : Timestamp.parse time.text = .ok time := by
  obtain ⟨seconds, firstLe, leLast⟩ := time
  have fits : fitsWord seconds = true := by
    unfold first at firstLe
    unfold last at leLast
    rw [fitsWord, Bool.and_eq_true, decide_eq_true_eq, decide_eq_true_eq]
    omega
  unfold Timestamp.parse Timestamp.text
  rw [String.toList_ofList, Decimal.integer?_ofInteger]
  simp only [fits, if_true]
  exact dif_pos ⟨firstLe, leLast⟩

/-- The signed fields, in the order in which they are signed. -/
def CallbackField.signedOrder : List CallbackField :=
  [.sender, .receiver, .messageId, .date, .nonce, .box]

/-- The signed texts among the texts of all fields. -/
def SignedFields.ofTexts (texts : CallbackField → String) : SignedFields :=
  { sender := texts .sender
    receiver := texts .receiver
    messageId := texts .messageId
    date := texts .date
    nonce := texts .nonce
    box := texts .box }

namespace Callback

/-! ## Acceptance -/

theorem required_eq_ok {fields : Table String String} {field : CallbackField} {text : String} :
    required fields field = .ok text ↔ fields.get? field.name = some text := by
  unfold required
  cases fields.get? field.name with
  | none => simp
  | some found => simp

/-- The signed fields and the signature of a body are all there. -/
theorem signedFields_eq_ok {fields : Table String String} {signed : SignedFields} {mac : String} :
    signedFields fields = .ok (signed, mac)
      ↔ fields.get? CallbackField.sender.name = some signed.sender
        ∧ fields.get? CallbackField.receiver.name = some signed.receiver
        ∧ fields.get? CallbackField.messageId.name = some signed.messageId
        ∧ fields.get? CallbackField.date.name = some signed.date
        ∧ fields.get? CallbackField.nonce.name = some signed.nonce
        ∧ fields.get? CallbackField.box.name = some signed.box
        ∧ fields.get? CallbackField.mac.name = some mac := by
  simp only [signedFields, Outcome.bind_eq_ok, required_eq_ok, Outcome.pure_eq_ok]
  constructor
  · rintro ⟨_, sender, _, receiver, _, messageId, _, date, _, nonce, _, box, _, mac, same⟩
    cases same
    exact ⟨sender, receiver, messageId, date, nonce, box, mac⟩
  · rintro ⟨sender, receiver, messageId, date, nonce, box, mac⟩
    exact ⟨_, sender, _, receiver, _, messageId, _, date, _, nonce, _, box, _, mac, rfl⟩

/-- Each part of a callback is what its field spells. -/
theorem ofFields_eq_ok {signed : SignedFields} {nickname : Option String} {callback : Callback} :
    ofFields signed nickname = .ok callback
      ↔ callback.sender.text = signed.sender
        ∧ callback.receiver.text = signed.receiver
        ∧ Octets.parseHex .messageId .messageId signed.messageId = .ok callback.messageId
        ∧ Timestamp.parse signed.date = .ok callback.date
        ∧ Envelope.ofHex signed.box signed.nonce = .ok callback.envelope
        ∧ nickname = callback.nickname := by
  simp only [ofFields, Outcome.bind_eq_ok, Identity.parse_eq_ok, Outcome.pure_eq_ok]
  constructor
  · rintro ⟨_, sender, _, receiver, _, messageId, _, date, _, envelope, rfl⟩
    exact ⟨sender, receiver, messageId, date, envelope, rfl⟩
  · rintro ⟨sender, receiver, messageId, date, envelope, rfl⟩
    exact ⟨_, sender, _, receiver, _, messageId, _, date, _, envelope, rfl⟩

/-- A callback is accepted exactly if no field is missing, the signature is right and each part is
what its field spells. -/
theorem verifyFields_eq_ok {secret : String} {fields : Table String String} {callback : Callback} :
    verifyFields secret fields = .ok callback
      ↔ ∃ signed, signedFields fields = .ok (signed, signed.mac secret)
        ∧ ofFields signed (fields.get? "nickname") = .ok callback := by
  simp only [verifyFields, Outcome.bind_eq_ok, Prod.exists]
  constructor
  · rintro ⟨signed, mac, found, h⟩
    split at h
    · rename_i right
      subst right
      exact ⟨signed, found, h⟩
    · contradiction
  · rintro ⟨signed, found, h⟩
    exact ⟨signed, signed.mac secret, found, by rw [if_pos rfl]; exact h⟩

/-! ## The signature -/

/-- The signature of texts under a secret: in hexadecimal text the HMAC-SHA256 of the signed ones,
with nothing between them. -/
def expectedMac (secret : String) (texts : CallbackField → String) : String :=
  Hex.encode (Hmac.authenticate (Utf8.encode secret)
    (CallbackField.signedOrder.flatMap fun field => Utf8.encode (texts field)))

/-- The signature that is asked for is the specified one. -/
theorem mac_ofTexts (secret : String) (texts : CallbackField → String) :
    (SignedFields.ofTexts texts).mac secret = expectedMac secret texts := rfl

-- the callback of SPEC_FULL §12
example :
    let texts : CallbackField → String := fun field =>
      match field with
      | .sender => "SENDERXY"
      | .receiver => "RECEIVER"
      | .messageId => "0011223344556677"
      | .date => "1650000000"
      | .nonce => "001122334455667700112233445566770011223344556677"
      | .box => "0123456789abcdef"
      | .mac => ""
    expectedMac "secret" texts
      = "c1d77e5a605511635c9150fb7c1f6ad9eaedf02352e981b6a1d687c742e84c15" := by
  decide +kernel

/-! ## Genuine callbacks -/

/-- The text of each field that the gateway posts for a callback with the signature `mac`. -/
def fieldText (callback : Callback) (mac : String) : CallbackField → String
  | .sender => callback.sender.text
  | .receiver => callback.receiver.text
  | .messageId => callback.messageId.toHex
  | .date => callback.date.text
  | .nonce => callback.envelope.nonceHex
  | .box => callback.envelope.boxHex
  | .mac => mac

/-- The signature of the gateway, which covers all fields but itself. -/
def signature (callback : Callback) (secret : String) : String :=
  expectedMac secret (callback.fieldText "")

/-- The texts that the gateway signs for a callback. -/
def signed (callback : Callback) : SignedFields := .ofTexts (callback.fieldText "")

/-- The signature of the gateway is the one that is asked for. -/
theorem mac_signed (callback : Callback) (secret : String) :
    callback.signed.mac secret = callback.signature secret :=
  mac_ofTexts secret (callback.fieldText "")

/-- The pairs that the gateway posts for a callback. -/
def pairs (callback : Callback) (secret : String) : List (String × String) :=
  let text := callback.fieldText (callback.signature secret)
  [("from", text .sender), ("to", text .receiver), ("messageId", text .messageId),
   ("date", text .date), ("nonce", text .nonce), ("box", text .box)]
    ++ callback.nickname.toList.map (fun nickname => ("nickname", nickname))
    ++ [("mac", text .mac)]

/-- The keys depend on whether there is a nickname, and on nothing else. -/
theorem map_fst_pairs (callback : Callback) (secret : String) :
    (callback.pairs secret).map Prod.fst
      = ["from", "to", "messageId", "date", "nonce", "box"]
        ++ callback.nickname.toList.map (fun _ => "nickname") ++ ["mac"] := by
  simp only [pairs, List.map_append, List.map_map, List.map_cons, List.map_nil]
  rfl

/-- No two pairs have the same key. -/
theorem nodup_pairs (callback : Callback) (secret : String) :
    ((callback.pairs secret).map Prod.fst).Nodup := by
  rw [map_fst_pairs]
  cases callback.nickname with
  | none => decide
  | some nickname =>
    rw [Option.toList_some, List.map_cons, List.map_nil]
    decide

/-- Each field that must be there is posted. -/
theorem mem_pairs (callback : Callback) (secret : String) (field : CallbackField) :
    (field.name, callback.fieldText (callback.signature secret) field) ∈ callback.pairs secret := by
  unfold pairs
  cases field with
  | mac => exact List.mem_append_right _ (List.mem_singleton_self _)
  | _ =>
    refine List.mem_append_left _ (List.mem_append_left _ ?_)
    simp [CallbackField.name]

/-- The parts of a callback are what the texts spell that the gateway signs. -/
theorem ofFields_signed (callback : Callback) :
    ofFields callback.signed callback.nickname = .ok callback :=
  ofFields_eq_ok.2 ⟨rfl, rfl, Octets.parseHex_toHex _ _, Timestamp.parse_text _,
    Envelope.ofHex_hex _, rfl⟩

section Posted

variable {secret : String} {callback : Callback} {posted : List (String × String)}
  (order : posted.Perm (callback.pairs secret))
include order

/-- A pair is found in a body, whatever the order. -/
theorem get?_of_mem_pairs {key value : String} (mem : (key, value) ∈ callback.pairs secret) :
    (Form.decode (FormBody.ofPairs posted).text).get? key = some value := by
  have keys : (posted.map Prod.fst).Perm ((callback.pairs secret).map Prod.fst) := order.map _
  exact Form.get?_decode_text (keys.nodup_iff.2 (callback.nodup_pairs secret)) (order.mem_iff.2 mem)

theorem signedFields_posted :
    signedFields (Form.decode (FormBody.ofPairs posted).text)
      = .ok (callback.signed, callback.signed.mac secret) := by
  have found (field : CallbackField) :
      (Form.decode (FormBody.ofPairs posted).text).get? field.name
        = some (callback.fieldText (callback.signature secret) field) :=
    get?_of_mem_pairs order (callback.mem_pairs secret field)
  rw [mac_signed]
  exact signedFields_eq_ok.2 ⟨found .sender, found .receiver, found .messageId, found .date,
    found .nonce, found .box, found .mac⟩

theorem nickname_posted :
    (Form.decode (FormBody.ofPairs posted).text).get? "nickname" = callback.nickname := by
  cases h : callback.nickname with
  | some nickname => exact get?_of_mem_pairs order (by simp [pairs, h])
  | none =>
    refine Form.get?_decode_text_of_not_mem fun mem => ?_
    have isKey := (order.map Prod.fst).mem_iff.1 mem
    rw [map_fst_pairs, h] at isKey
    exact absurd isKey (by decide)

theorem ofFields_posted :
    ofFields callback.signed ((Form.decode (FormBody.ofPairs posted).text).get? "nickname")
      = .ok callback := by
  rw [nickname_posted order]
  exact callback.ofFields_signed

end Posted

/-- Every callback that is posted with the specified signature is accepted, and nothing of it is
changed, whatever the order of its pairs. -/
theorem verify_posted {secret : String} {callback : Callback} {posted : List (String × String)}
    (order : posted.Perm (callback.pairs secret)) :
    verify secret (FormBody.ofPairs posted).text = .ok callback :=
  verifyFields_eq_ok.2 ⟨callback.signed, signedFields_posted order, ofFields_posted order⟩

/-- The names of the participants and the nickname may hold all that a form has to escape, and the
date may lie before 1970. -/
theorem verify_posted_backwards :
    let callback : Callback :=
      { sender := ⟨"%&=+#*.-", by decide⟩
        receiver := ⟨"a%20b+=&", by decide⟩
        messageId := ⟨[0, 1, 2, 3, 4, 5, 6, 255], rfl⟩
        date := ⟨-86400, by decide, by decide⟩
        envelope := ⟨[], ⟨Bytes.zeros 24, rfl⟩, by decide⟩
        nickname := some "Zoë & co=+" }
    verify "sécret" (FormBody.ofPairs (callback.pairs "sécret").reverse).text = .ok callback := by
  intro callback
  exact verify_posted (List.reverse_perm (callback.pairs "sécret"))

end Callback

end SealedEnvelope
