import SealedEnvelope.Account
import SealedEnvelope.Proofs.Envelope.Capacity
import SealedEnvelope.Proofs.Octets.HexText

/-!
# Valid accounts (SPEC_FULL §9)

The validator and the accessors of an account read the same texts by different paths.  What the one
lets through never fails the others: a valid account has an identity and a private key, its limit is
one that messages fit, and it is read back from the document that it is written as.
-/

set_option autoImplicit false

namespace SealedEnvelope

/-- Eight graphic characters of ASCII are an identity. -/
theorem Identity.isLegal_iff {text : String} :
    isLegal text = true
      ↔ text.toList.length = 8 ∧ ∀ c ∈ text.toList, '!' ≤ c ∧ c ≤ '~' := by
  simp only [isLegal, isGraphic, Bool.and_eq_true, decide_eq_true_eq, List.all_eq_true]

namespace Account

/-! ## Validation -/

/-- What an account must look like to be of use. -/
structure Valid (account : Account) : Prop where
  identity_length : account.identityText.toList.length = 8
  identity_graphic : ∀ c ∈ account.identityText.toList, '!' ≤ c ∧ c ≤ '~'
  secret : account.secret ≠ ""
  privateKey_length : account.privateKeyText.toList.length = 64
  privateKey_digits : ∀ c ∈ account.privateKeyText.toList, Hex.isDigit c = true
  least : 48 ≤ account.maxContent
  most : account.maxContent ≤ 4000

namespace Valid

variable {account : Account} (valid : account.Valid)
include valid

theorem isLegal : Identity.isLegal account.identityText = true :=
  Identity.isLegal_iff.2 ⟨valid.identity_length, valid.identity_graphic⟩

theorem exists_key :
    ∃ key : PrivateKey, Octets.ofHex .privateKey account.privateKeyText = .ok key :=
  Octets.exists_ofHex_eq_ok_iff.2 ⟨valid.privateKey_length, valid.privateKey_digits⟩

theorem inRange :
    (minContentLength ≤ account.maxContent && account.maxContent ≤ maxContentLength) = true :=
  Bool.and_eq_true_iff.2 ⟨decide_eq_true valid.least, decide_eq_true valid.most⟩

end Valid

/-- A text of some length is not empty. -/
theorem ne_empty_of_length {text : String} {length : Nat} (h : text.toList.length = length + 1) :
    text ≠ "" := by
  rintro rfl
  cases h

/-- The validator lets the valid accounts through, and no others: the checks for empty texts come
first, but the other checks imply them. -/
theorem validate_eq_ok {account : Account} : account.validate = .ok () ↔ account.Valid := by
  constructor
  · intro h
    unfold validate at h
    split at h
    · contradiction
    split at h
    · contradiction
    rename_i legal
    split at h
    · contradiction
    rename_i secret
    split at h
    · contradiction
    split at h
    · contradiction
    rename_i key read
    split at h
    · rename_i range
      rw [Bool.not_eq_true, Bool.not_eq_false'] at legal
      obtain ⟨length, graphic⟩ := Identity.isLegal_iff.1 legal
      obtain ⟨keyLength, digits⟩ := Octets.exists_ofHex_eq_ok_iff.1 ⟨key, read⟩
      obtain ⟨least, most⟩ := Bool.and_eq_true_iff.1 range
      exact ⟨length, graphic, secret, keyLength, digits, of_decide_eq_true least,
        of_decide_eq_true most⟩
    · contradiction
  · intro valid
    obtain ⟨key, read⟩ := valid.exists_key
    unfold validate
    rw [if_neg (ne_empty_of_length valid.identity_length), valid.isLegal, if_neg (by decide),
      if_neg valid.secret, if_neg (ne_empty_of_length valid.privateKey_length), read]
    exact if_pos valid.inRange

/-! ## Use -/

section Use

variable {account : Account} (valid : account.Valid)
include valid

theorem exists_identity_eq_ok :
    ∃ identity, account.identity = .ok identity ∧ identity.text = account.identityText :=
  ⟨⟨account.identityText, valid.isLegal⟩,
    Outcome.mapError_eq_ok.2 (Identity.parse_eq_ok.2 rfl), rfl⟩

theorem exists_privateKey_eq_ok :
    ∃ key, account.privateKey = .ok key ∧ key.SpelledBy account.privateKeyText := by
  obtain ⟨key, read⟩ := valid.exists_key
  refine ⟨key, Outcome.mapError_eq_ok.2 (Outcome.mapError_eq_ok.2 read), ?_⟩
  exact Octets.parseHex_eq_ok.1
    (Outcome.mapError_eq_ok.2 read : Octets.parseHex .privateKey .privateKey _ = .ok key)

theorem limit_eq_maxContent : account.limit = account.maxContent :=
  Nat.min_eq_left valid.most

/-- The empty text with the shortest padding fits every valid limit. -/
theorem exists_source_encrypt_empty (sender : PrivateKey) (receiver : PublicKey) :
    ∃ source envelope,
      (Envelope.encrypt (.text "") sender receiver account.limit source).1 = .ok envelope := by
  refine (Envelope.exists_source_encrypt_eq_ok_iff sender receiver).2 ?_
  have most : account.maxContent ≤ maxContentLength := valid.most
  rw [limit_eq_maxContent valid, Nat.min_eq_left most]
  exact valid.least

end Use

/-- What is sealed under a limit is no longer than the limit. -/
theorem length_box_le_of_encrypt {message : Message} {sender : PrivateKey} {receiver : PublicKey}
    {limit : Nat} {source : RandomSource} {envelope : Envelope}
    (sealed : (Envelope.encrypt message sender receiver limit source).1 = .ok envelope) :
    envelope.box.length ≤ limit := by
  obtain ⟨fits, box, _⟩ := Envelope.encrypt_eq_ok.1 sealed
  rw [← box, SecretBox.length_encrypt]
  exact Nat.le_trans fits (Nat.min_le_left _ _)

/-! ## Documents -/

section Documents

open FileRecord (textMember naturalMember)

/-- The members of the document of an account, in the order they are written. -/
def members (account : Account) : List Json.WrittenMember :=
  [textMember AccountField.identity.name account.identityText,
   textMember AccountField.secret.name account.secret,
   textMember AccountField.privateKey.name account.privateKeyText,
   naturalMember AccountField.maxContentLength.name account.maxContent]

theorem encode_json (account : Account) :
    Utf8.encode account.json
      = Utf8.encodeChars (Json.writeObject (account.members.map Json.WrittenMember.written)) := by
  rw [Utf8.encode, json, String.toList_ofList]
  rfl

/-- Each member is admitted by the field of its name, and no name comes twice. -/
theorem admitted {account : Account} (small : account.maxContent < 2 ^ 64) :
    Json.Record.Admitted fields (account.members.map Json.WrittenMember.read) := by
  have names : (account.members.map Json.WrittenMember.read).map Prod.fst
      = ["identity", "secret", "private_key", "max_content_length"] := rfl
  refine ⟨?_, by rw [names]; decide⟩
  intro found mem
  simp only [members, List.map_cons, List.map_nil, List.mem_cons, List.not_mem_nil, or_false] at mem
  rcases mem with rfl | rfl | rfl | rfl
  case inr.inr.inr =>
    exact ⟨_, rfl, decide_eq_true (by omega)⟩
  all_goals exact ⟨_, rfl, rfl⟩

/-- An account is read back from its members. -/
theorem ofFields_members {account : Account} {found : Json.Record}
    (h : ∀ name, found.value? name
      = Json.Record.value? (account.members.map Json.WrittenMember.read) name) :
    ofFields found = account := by
  have identity : found.text? AccountField.identity.name = some account.identityText :=
    Json.Record.text?_of_value? (h _)
  have secret : found.text? AccountField.secret.name = some account.secret :=
    Json.Record.text?_of_value? (h _)
  have privateKey : found.text? AccountField.privateKey.name = some account.privateKeyText :=
    Json.Record.text?_of_value? (h _)
  have maxContent : found.natural? AccountField.maxContentLength.name = some account.maxContent :=
    Json.Record.natural?_of_value? (h _)
  rw [ofFields, identity, secret, privateKey, maxContent]
  rfl

/-- Any account whose limit is a number of 64 bits is read back from its document, valid or not. -/
theorem document_json {account : Account} (small : account.maxContent < 2 ^ 64) :
    Json.document ofValue (Utf8.encode account.json) = .ok account := by
  obtain ⟨found, eq, agrees⟩ := Json.Record.ofValue_object (admitted small)
  rw [encode_json, Json.document_writeObject, ofValue, eq]
  exact congrArg Except.ok (ofFields_members agrees)

theorem ofJson_json {account : Account} (valid : account.Valid) :
    ofJson account.json = .ok account := by
  have small : account.maxContent < 2 ^ 64 := Nat.lt_of_le_of_lt valid.most (by decide)
  rw [ofJson, document_json small]
  refine Outcome.bind_eq_ok.2 ⟨account, rfl, ?_⟩
  exact Outcome.bind_eq_ok.2 ⟨(), validate_eq_ok.2 valid, rfl⟩

end Documents

/-- The validator lets an account through exactly if its identity is eight graphic characters of
ASCII, its secret is not empty, its private key is sixty-four hexadecimal digits and its limit is
between 48 and 4000.  Then its identity and its private key are those that its texts spell, its
limit is the one that it names, nothing longer is ever sealed under that limit, the empty text is
sealed under it from some source, and the account is read back from its document. -/
theorem validate_sound (account : Account) :
    (account.validate = .ok () ↔ account.Valid)
    ∧ (account.validate = .ok () →
      (∃ identity, account.identity = .ok identity ∧ identity.text = account.identityText)
      ∧ (∃ key, account.privateKey = .ok key ∧ key.SpelledBy account.privateKeyText)
      ∧ account.limit = account.maxContent
      ∧ (∀ (message : Message) (sender : PrivateKey) (receiver : PublicKey)
          (source : RandomSource) (envelope : Envelope),
        (Envelope.encrypt message sender receiver account.limit source).1 = .ok envelope →
          envelope.box.length ≤ account.maxContent)
      ∧ (∀ (sender : PrivateKey) (receiver : PublicKey), ∃ source envelope,
        (Envelope.encrypt (.text "") sender receiver account.limit source).1 = .ok envelope)
      ∧ ofJson account.json = .ok account) := by
  refine ⟨validate_eq_ok, fun checked => ?_⟩
  have valid := validate_eq_ok.1 checked
  have limit := limit_eq_maxContent valid
  refine ⟨exists_identity_eq_ok valid, exists_privateKey_eq_ok valid, limit, ?_,
    exists_source_encrypt_empty valid, ofJson_json valid⟩
  intro message sender receiver source envelope sealed
  rw [← limit]
  exact length_box_le_of_encrypt sealed

/-- An account with the least limit, a secret that needs escapes and a key in mixed case: it is read
back from its document, and the empty text is sealed for it. -/
theorem validate_sound_least_limit :
    let account : Account :=
      ⟨"*GATEWAY", "schlüssel \"1\"\n", String.ofList (List.replicate 32 ['a', 'B']).flatten,
        48⟩
    let sender : PrivateKey := ⟨List.replicate 32 1, rfl⟩
    let receiver : PublicKey := ⟨List.replicate 32 2, rfl⟩
    account.validate = .ok ()
      ∧ (∃ key, account.privateKey = .ok key ∧ key.SpelledBy account.privateKeyText)
      ∧ ofJson account.json = .ok account
      ∧ ∃ source envelope,
        (Envelope.encrypt (.text "") sender receiver account.limit source).1 = .ok envelope
          ∧ envelope.box.length ≤ 48 := by
  intro account sender receiver
  have legal : Identity.isLegal account.identityText = true := by decide +kernel
  have digits : account.privateKeyText.toList.all Hex.isDigit = true := by decide +kernel
  obtain ⟨length, graphic⟩ := Identity.isLegal_iff.1 legal
  have valid : account.Valid :=
    ⟨length, graphic, by decide, by decide +kernel, List.all_eq_true.1 digits, by decide, by decide⟩
  have checked := validate_eq_ok.2 valid
  obtain ⟨_, key, _, fits, empty, stored⟩ := (validate_sound account).2 checked
  obtain ⟨source, envelope, sealed⟩ := empty sender receiver
  exact ⟨checked, key, stored, source, envelope, sealed, fits _ _ _ _ _ sealed⟩

end Account

end SealedEnvelope
