import SealedEnvelope.Proofs.Callback.Verification

/-!
# How a callback is decided (SPEC_FULL §4.6)

A callback is looked at in three phases, each of which is over before the next one begins: whether
its fields are there, whether their signature is right, and what they spell.  Without the right
signature the outcome says nothing about the third.
-/

set_option autoImplicit false

namespace SealedEnvelope

open Outcome (error? error?_bind error?_eq_some error?_eq_none findSome?_cons_eq_or)

namespace CallbackField

/-- The fields that must be there, in the order in which they are looked for. -/
def lookupOrder : List CallbackField := signedOrder ++ [.mac]

example : lookupOrder.map name = ["from", "to", "messageId", "date", "nonce", "box", "mac"] := rfl

theorem mem_lookupOrder (field : CallbackField) : field ∈ lookupOrder := by
  cases field <;> decide

end CallbackField

namespace Callback

/-! ## Presence -/

/-- The first field that a body lacks. -/
def firstMissing (fields : Table String String) : Option CallbackField :=
  CallbackField.lookupOrder.find? fun field => (fields.get? field.name).isNone

/-- Whether the signed fields can be taken from a body depends on the first missing field alone. -/
theorem error?_signedFields (fields : Table String String) :
    error? (signedFields fields) = (firstMissing fields).map .missingField := by
  have inTurn : error? (signedFields fields)
      = CallbackField.lookupOrder.findSome? fun field => error? (required fields field) := by
    simp only [CallbackField.lookupOrder, CallbackField.signedOrder, List.cons_append,
      List.nil_append, findSome?_cons_eq_or, List.findSome?_nil]
    unfold signedFields
    -- Each look-up is one step, and what the earlier ones found is without effect on its error.
    iterate 7 refine error?_bind fun _ _ => ?_
    rfl
  have each (field : CallbackField) : error? (required fields field)
      = (Option.guard (fun field => (fields.get? field.name).isNone) field).map
        .missingField := by
    unfold required
    cases h : fields.get? field.name with
    | none => simp [error?, Option.guard, h]
    | some text => simp [error?, Option.guard, h]
  rw [inTurn, firstMissing, List.find?_eq_findSome?_guard, List.map_findSome?]
  exact congrArg (List.findSome? · _) (funext each)

/-- A body that lacks no field has a text for each. -/
theorem exists_texts_of_firstMissing {fields : Table String String}
    (h : firstMissing fields = none) :
    ∃ texts : CallbackField → String, ∀ field, fields.get? field.name = some (texts field) := by
  refine ⟨fun field => (fields.get? field.name).getD "", fun field => ?_⟩
  have there := List.find?_eq_none.1 h field field.mem_lookupOrder
  cases found : fields.get? field.name with
  | none => simp [found] at there
  | some text => simp [found]

section Fields

variable {secret : String} {fields : Table String String}

theorem verifyFields_of_firstMissing {field : CallbackField}
    (h : firstMissing fields = some field) :
    verifyFields secret fields = .error (.missingField field) := by
  have missing : signedFields fields = .error (.missingField field) := by
    rw [← error?_eq_some, error?_signedFields, h]
    rfl
  unfold verifyFields
  rw [missing]
  rfl

/-! ## Authentication -/

variable {texts : CallbackField → String}

theorem signedFields_of_texts (h : ∀ field, fields.get? field.name = some (texts field)) :
    signedFields fields = .ok (.ofTexts texts, texts .mac) :=
  signedFields_eq_ok.2 ⟨h .sender, h .receiver, h .messageId, h .date, h .nonce, h .box, h .mac⟩

theorem verifyFields_of_wrong_mac (h : ∀ field, fields.get? field.name = some (texts field))
    (wrong : texts .mac ≠ expectedMac secret texts) :
    verifyFields secret fields = .error .wrongSignature := by
  unfold verifyFields
  rw [signedFields_of_texts h]
  exact if_neg fun same => wrong (same.symm.trans (mac_ofTexts secret texts))

theorem verifyFields_of_right_mac (h : ∀ field, fields.get? field.name = some (texts field))
    (right : texts .mac = expectedMac secret texts) :
    verifyFields secret fields = ofFields (.ofTexts texts) (fields.get? "nickname") := by
  unfold verifyFields
  rw [signedFields_of_texts h]
  exact if_pos ((mac_ofTexts secret texts).trans right.symm)

/-- A callback comes out of a body only with the right signature. -/
theorem mac_of_verifyFields {callback : Callback}
    (accepted : verifyFields secret fields = .ok callback)
    (h : ∀ field, fields.get? field.name = some (texts field)) :
    texts .mac = expectedMac secret texts := by
  apply Decidable.byContradiction
  intro wrong
  rw [verifyFields_of_wrong_mac h wrong] at accepted
  contradiction

end Fields

/-! ## Parsing -/

/-- The error for a box of more bytes than the gateway carries, two digits for each. -/
def oversize? (box : String) : Option Error :=
  let length := (Utf8.encode box).length / 2
  if maxContentLength < length then some (.contentTooLarge maxContentLength length) else none

/-- What each check of the signed texts finds wrong, in the order of the checks: the participants,
the identifier of the message, the date, the digits of the box, the nonce and the size of the
box. -/
def checks (signed : SignedFields) : List (Option Error) :=
  [error? (Identity.parse signed.sender),
   error? (Identity.parse signed.receiver),
   error? (Octets.parseHex .messageId .messageId signed.messageId),
   error? (Timestamp.parse signed.date),
   error? ((Hex.decode signed.box).mapError (Error.notHex .box)),
   error? (Octets.parseHex .nonce .nonce signed.nonce),
   oversize? signed.box]

/-- What the first check finds wrong that fails. -/
def firstFailure (signed : SignedFields) : Option Error := (checks signed).findSome? id

theorem error?_ofHex (box nonce : String) :
    error? (Envelope.ofHex box nonce)
      = (error? ((Hex.decode box).mapError (Error.notHex .box))).or
        ((error? (Octets.parseHex .nonce .nonce nonce)).or (oversize? box)) := by
  unfold Envelope.ofHex
  cases decoded : Hex.decode box with
  | error fault => rfl
  | ok bytes =>
    cases Octets.parseHex .nonce .nonce nonce with
    | error fault => rfl
    | ok nonce =>
      have length : (Utf8.encode box).length / 2 = bytes.length := by
        rw [Hex.length_of_decode decoded]
        omega
      change error? (Envelope.make bytes nonce) = oversize? box
      unfold Envelope.make oversize?
      rw [length]
      by_cases small : bytes.length ≤ maxContentLength
      · rw [dif_pos small, if_neg (Nat.not_lt.2 small)]
        rfl
      · rw [dif_neg small, if_pos (Nat.not_le.1 small)]
        rfl

/-- Signed texts are refused by the first check that fails. -/
theorem error?_ofFields (signed : SignedFields) (nickname : Option String) :
    error? (ofFields signed nickname) = firstFailure signed := by
  simp only [firstFailure, checks, findSome?_cons_eq_or, List.findSome?_nil, id, Option.or_none]
  unfold ofFields
  iterate 4 refine error?_bind fun _ _ => ?_
  -- The envelope is made last, and its three checks are the last three.
  rw [← error?_ofHex]
  cases Envelope.ofHex signed.box signed.nonce with
  | error fault => rfl
  | ok envelope => rfl

/-! ## The classes of the errors -/

/-- An error about what a field spells: a limit is violated or a text is malformed. -/
def IsParsingError (error : Error) : Prop := error.kind = .validation ∨ error.kind = .format

theorem isParsingError_of_identity {text : String} {error : Error}
    (h : Identity.parse text = .error error) : IsParsingError error := by
  obtain ⟨_, rfl⟩ := Identity.parse_eq_error.1 h
  exact .inl rfl

theorem isParsingError_of_octets {role : Role} {subject : Subject} {text : String} {error : Error}
    (h : Octets.parseHex role subject text = .error error) : IsParsingError error := by
  obtain ⟨fault, _, rfl⟩ := Outcome.mapError_eq_error.1 h
  cases fault with
  | hex fault => exact .inr rfl
  | length expected actual => exact .inl rfl

theorem isParsingError_of_date {text : String} {error : Error}
    (h : Timestamp.parse text = .error error) : IsParsingError error := by
  unfold Timestamp.parse Timestamp.ofSeconds at h
  split at h
  · cases h
    exact .inr rfl
  · split at h
    · split at h
      · contradiction
      · cases h
        exact .inr rfl
    · cases h
      exact .inr rfl

theorem isParsingError_of_digits {text : String} {error : Error}
    (h : (Hex.decode text).mapError (Error.notHex .box) = .error error) :
    IsParsingError error := by
  obtain ⟨fault, _, rfl⟩ := Outcome.mapError_eq_error.1 h
  exact .inr rfl

theorem isParsingError_of_oversize {box : String} {error : Error}
    (h : oversize? box = some error) : IsParsingError error := by
  simp only [oversize?] at h
  split at h
  · cases h
    exact .inl rfl
  · contradiction

/-- No check finds anything wrong but what a field spells. -/
theorem isParsingError_of_firstFailure {signed : SignedFields} {error : Error}
    (h : firstFailure signed = some error) : IsParsingError error := by
  obtain ⟨check, mem, found⟩ := List.exists_of_findSome?_eq_some h
  change check = some error at found
  subst found
  simp only [checks, List.mem_cons, List.not_mem_nil, or_false] at mem
  obtain sender | receiver | messageId | date | digits | nonce | size := mem
  · exact isParsingError_of_identity (error?_eq_some.1 sender.symm)
  · exact isParsingError_of_identity (error?_eq_some.1 receiver.symm)
  · exact isParsingError_of_octets (error?_eq_some.1 messageId.symm)
  · exact isParsingError_of_date (error?_eq_some.1 date.symm)
  · exact isParsingError_of_digits (error?_eq_some.1 digits.symm)
  · exact isParsingError_of_octets (error?_eq_some.1 nonce.symm)
  · exact isParsingError_of_oversize size.symm

/-! ## The decision -/

/-- A body that lacks a field is refused for the first one that it lacks.  Otherwise a signature
that is not the expected one is refused, whatever the other fields spell.  With the expected
signature, the first check that fails tells the error, and there is a callback if none does.  So a
callback comes of no body without the expected signature. -/
theorem verify_decision (secret body : String) :
    (∀ field, firstMissing (Form.decode body) = some field →
      verify secret body = .error (.missingField field))
    ∧ (firstMissing (Form.decode body) = none →
      ∃ texts : CallbackField → String,
        (∀ field, (Form.decode body).get? field.name = some (texts field))
        ∧ (texts .mac ≠ expectedMac secret texts → verify secret body = .error .wrongSignature)
        ∧ (texts .mac = expectedMac secret texts →
          (∀ error, verify secret body = .error error
            ↔ firstFailure (.ofTexts texts) = some error)
          ∧ ((∃ callback, verify secret body = .ok callback)
            ↔ firstFailure (.ofTexts texts) = none)
          ∧ ∀ error, verify secret body = .error error →
            error.kind = .validation ∨ error.kind = .format))
    ∧ ∀ callback, verify secret body = .ok callback →
      ∃ texts : CallbackField → String,
        (∀ field, (Form.decode body).get? field.name = some (texts field))
        ∧ texts .mac = expectedMac secret texts := by
  refine ⟨fun field missing => verifyFields_of_firstMissing missing, fun complete => ?_,
    fun callback accepted => ?_⟩
  · obtain ⟨texts, found⟩ := exists_texts_of_firstMissing complete
    refine ⟨texts, found, verifyFields_of_wrong_mac found, fun right => ?_⟩
    have parsed : error? (verify secret body) = firstFailure (.ofTexts texts) := by
      rw [verify, verifyFields_of_right_mac found right, error?_ofFields]
    have refused (error : Error) : verify secret body = .error error
        ↔ firstFailure (.ofTexts texts) = some error := by
      rw [← parsed, error?_eq_some]
    refine ⟨refused, ?_, fun error h => isParsingError_of_firstFailure ((refused error).1 h)⟩
    rw [← parsed, error?_eq_none]
  · cases complete : firstMissing (Form.decode body) with
    | some field =>
      rw [verify, verifyFields_of_firstMissing complete] at accepted
      contradiction
    | none =>
      obtain ⟨texts, found⟩ := exists_texts_of_firstMissing complete
      exact ⟨texts, found, mac_of_verifyFields accepted found⟩

/-- The body in which each field has the given text. -/
def bodyOf (texts : CallbackField → String) : String :=
  (FormBody.ofPairs (CallbackField.lookupOrder.map fun field => (field.name, texts field))).text

theorem get?_bodyOf (texts : CallbackField → String) (field : CallbackField) :
    (Form.decode (bodyOf texts)).get? field.name = some (texts field) := by
  refine Form.get?_decode_text ?_ (List.mem_map_of_mem field.mem_lookupOrder)
  rw [List.map_map]
  exact (by decide : (CallbackField.lookupOrder.map CallbackField.name).Nodup)

theorem firstMissing_bodyOf (texts : CallbackField → String) :
    firstMissing (Form.decode (bodyOf texts)) = none := by
  refine List.find?_eq_none.2 fun field _ => ?_
  rw [get?_bodyOf texts field]
  exact Bool.false_ne_true

/-- No other texts are found in the body. -/
theorem eq_of_get?_bodyOf {texts found : CallbackField → String}
    (h : ∀ field, (Form.decode (bodyOf texts)).get? field.name = some (found field)) :
    found = texts :=
  funext fun field => Option.some.inj ((h field).symm.trans (get?_bodyOf texts field))

/-- Of three ill-formed fields none is told while the signature is wrong, and the first one once it
is right.  A field that is absent is told in either case. -/
theorem verify_decision_ill_formed :
    let texts (mac : String) : CallbackField → String := fun field =>
      match field with
      | .sender => "*GATEWAY"
      | .receiver => "RECEIVER"
      | .messageId => "00112233"
      | .date => "tomorrow"
      | .nonce => ""
      | .box => "0"
      | .mac => mac
    let mac := expectedMac "secret" (texts "")
    verify "secret" (bodyOf (texts (mac ++ "0"))) = .error .wrongSignature
      ∧ verify "secret" (bodyOf (texts mac)) = .error (.wrongLength .messageId 8 4)
      ∧ verify "secret" "to=RECEIVER&from" = .error (.missingField .sender) := by
  intro texts mac
  refine ⟨?_, ?_, (verify_decision "secret" "to=RECEIVER&from").1 .sender (by decide)⟩
  · obtain ⟨found, here, wrong, _⟩ :=
      (verify_decision "secret" (bodyOf (texts (mac ++ "0")))).2.1 (firstMissing_bodyOf _)
    cases eq_of_get?_bodyOf here
    refine wrong fun (h : mac ++ "0" = mac) => ?_
    have longer := congrArg String.length h
    rw [String.length_append] at longer
    exact absurd longer (Nat.succ_ne_self _)
  · obtain ⟨found, here, _, right⟩ :=
      (verify_decision "secret" (bodyOf (texts mac))).2.1 (firstMissing_bodyOf _)
    cases eq_of_get?_bodyOf here
    exact ((right rfl).1 _).2 (by decide)

end Callback

end SealedEnvelope
