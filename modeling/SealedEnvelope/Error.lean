import SealedEnvelope.Cipher.Error
import SealedEnvelope.Json.Record
import SealedEnvelope.Number.Shortest
import SealedEnvelope.Text.Quoted

/-!
# Errors (SPEC_FULL §7)

Every way in which a message, an attachment or a callback can be refused, as a cause with the values
that its wording names.  An error ends the processing of the one message it is about.
-/

set_option autoImplicit false

namespace SealedEnvelope

/-! ## What an error is about -/

/-- The value whose length or hexadecimal text is wrong. -/
inductive Subject where
  | messageId
  | blobId
  | lookupHash
  | nonce
  | key
  | secretKey
  | fileKey
  | publicKey
  | privateKey
  | box
  deriving DecidableEq, Repr, Inhabited

/-- The name of a subject in an error. -/
def Subject.name : Subject → String
  | .messageId => "message id"
  | .blobId => "blob id"
  | .lookupHash => "hash"
  | .nonce => "nonce"
  | .key => "key"
  | .secretKey => "secret key"
  | .fileKey => "file key"
  | .publicKey => "public key"
  | .privateKey => "private key"
  | .box => "box"

/-- The field of a location that holds a value which its encoding cannot carry. -/
inductive LocationField where
  | latitude
  | longitude
  | accuracy
  | name
  | address
  deriving DecidableEq, Repr, Inhabited

/-- The name of a field in an error. -/
def LocationField.label : LocationField → String
  | .latitude => "latitude"
  | .longitude => "longitude"
  | .accuracy => "accuracy"
  | .name => "name"
  | .address => "address"

/-- Why an encoding cannot carry a value. -/
inductive FieldFault where
  | notFinite (number : Binary64)
  | lineBreak
  deriving DecidableEq, Repr, Inhabited

/-- The wording of a fault. -/
def FieldFault.message : FieldFault → String
  | .notFinite number => number.text ++ " is not a finite number"
  | .lineBreak => "contains a line break"

/-- A field that a callback must have. -/
inductive CallbackField where
  | sender
  | receiver
  | messageId
  | date
  | nonce
  | box
  | mac
  deriving DecidableEq, Repr, Inhabited

/-- The name of a field in the body of a callback. -/
def CallbackField.name : CallbackField → String
  | .sender => "from"
  | .receiver => "to"
  | .messageId => "messageId"
  | .date => "date"
  | .nonce => "nonce"
  | .box => "box"
  | .mac => "mac"

/-- The kind of data that is malformed. -/
inductive Context where
  | padding
  | message
  | textMessage
  | locationMessage
  | imageMessage
  | fileMessage
  | deliveryReceipt
  | callbackBody
  | callbackDate
  | contactCard
  | bulkResponse
  deriving DecidableEq, Repr, Inhabited

/-- The name of a kind of data in an error. -/
def Context.name : Context → String
  | .padding => "padding"
  | .message => "message"
  | .textMessage => "text message"
  | .locationMessage => "location message"
  | .imageMessage => "image message"
  | .fileMessage => "file message"
  | .deliveryReceipt => "delivery receipt"
  | .callbackBody => "callback body"
  | .callbackDate => "callback date"
  | .contactCard => "qr code"
  | .bulkResponse => "bulk lookup response"

/-! ## Why data is malformed -/

/-- The wording for a value of the wrong length. -/
def wrongLengthMessage (subject : Subject) (expected actual : Nat) : String :=
  let name := subject.name
  s!"Invalid {name} length: expected {expected} bytes, got {actual}"

/-- Why data is malformed. -/
inductive Reason where
  | notText (fault : Utf8.Fault)
  | notRecord (fault : Json.Fault)
  | emptyBuffer
  | paddingTooLong (claimed available : Nat)
  | missingTag
  | coordinateCount (count : Nat)
  | notNumber (text : String)
  | lineCount (count : Nat)
  | bodyLength (expected actual : Nat)
  | negativeSize (size : Int)
  | sizeTooLarge (size : Nat)
  | valueLength (subject : Subject) (expected actual : Nat)
  | unknownRendering (value : Nat)
  | missingReceiptType
  | raggedIds (length : Nat)
  | unknownReceipt (value : Nat)
  | notInteger (text : String)
  | outOfRange (seconds : Int)
  | missingStart
  | missingSeparator
  deriving DecidableEq, Repr, Inhabited

/-- The wording of a reason. -/
def Reason.message : Reason → String
  | .notText fault => fault.message
  | .notRecord fault => fault.message
  | .emptyBuffer => "empty buffer"
  | .paddingTooLong claimed available => s!"claims {claimed} bytes but only {available} available"
  | .missingTag => "missing type tag"
  | .coordinateCount count => s!"expected 2 or 3 coordinates, got {count}"
  | .notNumber text => "invalid number " ++ Text.quoted text
  | .lineCount count => s!"too many lines: {count}"
  | .bodyLength expected actual => s!"expected {expected} bytes, got {actual}"
  | .negativeSize size => s!"negative size {size}"
  | .sizeTooLarge size => s!"size {size} out of range"
  | .valueLength subject expected actual => wrongLengthMessage subject expected actual
  | .unknownRendering value => s!"unknown rendering type {value}"
  | .missingReceiptType => "missing receipt type"
  | .raggedIds length => s!"{length} trailing bytes are not a whole number of message ids"
  | .unknownReceipt value => s!"unknown receipt type {value}"
  | .notInteger text => "not a number: " ++ Text.quoted text
  | .outOfRange seconds => s!"out of range: {seconds}"
  | .missingStart => "missing 3mid: prefix"
  | .missingSeparator => "missing separator"

/-! ## Errors -/

/-- The class of an error. -/
inductive ErrorKind where
  /-- A length or a limit is violated, which is noticed before any cryptography. -/
  | validation
  /-- Encoded data is malformed. -/
  | format
  /-- The tag of a message is not known. -/
  | unknownType
  /-- A box is not authentic. -/
  | authentication
  /-- A field of a callback is absent. -/
  | missingField
  /-- The signature of a callback is wrong. -/
  | signature
  deriving DecidableEq, Repr, Inhabited

/-- Why something is refused. -/
inductive Error where
  | wrongLength (subject : Subject) (expected actual : Nat)
  | illegalIdentity (text : String)
  | illegalField (field : LocationField) (fault : FieldFault)
  | contentTooLarge (limit actual : Nat)
  | blobTooLarge (limit actual : Nat)
  | malformed (context : Context) (reason : Reason)
  | notHex (subject : Subject) (fault : Hex.Fault)
  | unknownTag (tag : UInt8)
  | notAuthentic
  | missingField (field : CallbackField)
  | wrongSignature
  deriving DecidableEq, Repr, Inhabited

namespace Error

/-- The class of an error. -/
def kind : Error → ErrorKind
  | .wrongLength _ _ _ => .validation
  | .illegalIdentity _ => .validation
  | .illegalField _ _ => .validation
  | .contentTooLarge _ _ => .validation
  | .blobTooLarge _ _ => .validation
  | .malformed _ _ => .format
  | .notHex _ _ => .format
  | .unknownTag _ => .unknownType
  | .notAuthentic => .authentication
  | .missingField _ => .missingField
  | .wrongSignature => .signature

/-- The wording of an error. -/
def message : Error → String
  | .wrongLength subject expected actual => wrongLengthMessage subject expected actual
  | .illegalIdentity text => "Illegal identity: " ++ Text.quoted text
  | .illegalField field fault => "Invalid " ++ field.label ++ ": " ++ fault.message
  | .contentTooLarge limit actual =>
    s!"Content too large: {actual} bytes exceeds maximum {limit}"
  | .blobTooLarge limit actual => s!"Blob size too large: {actual} exceeds maximum {limit}"
  | .malformed context reason => "Invalid " ++ context.name ++ ": " ++ reason.message
  | .notHex subject fault => "Invalid hex in " ++ subject.name ++ ": " ++ fault.message
  | .unknownTag tag => "Unknown message type: 0x" ++ Hex.encode [tag]
  | .notAuthentic => "Failed to decrypt message"
  | .missingField field => "Missing parameter " ++ field.name
  | .wrongSignature => "Invalid signature"

/-- The error for a value that could not be made. -/
def ofFault (subject : Subject) : Octets.Fault → Error
  | .hex fault => .notHex subject fault
  | .length expected actual => .wrongLength subject expected actual

/-- The error for what a cipher refuses.  A text that is not hexadecimal is told as that of a key,
since a cipher does not tell what it was for. -/
def ofCipher : CipherError → Error
  | .keyLength expected actual => .wrongLength .key expected actual
  | .nonceLength expected actual => .wrongLength .nonce expected actual
  | .hex fault => .notHex .key fault
  | .rejected => .notAuthentic

/-- The error with its length or its hexadecimal text told of another value. -/
def about (subject : Subject) : Error → Error
  | .wrongLength _ expected actual => .wrongLength subject expected actual
  | .notHex _ fault => .notHex subject fault
  | error => error

/-- What a cipher finds wrong with a key or a nonce is told of the value that it was given for. -/
theorem about_ofCipher (subject : Subject) (role : Role) (fault : Octets.Fault) :
    (ofCipher (CipherError.ofFault role fault)).about subject = ofFault subject fault := by
  cases fault with
  | hex fault => rfl
  | length expected actual => cases role <;> rfl

/-- The error for a value inside data of the kind `context` that could not be made: there a wrong
length is a fault of the data. -/
def ofNestedFault (context : Context) (subject : Subject) : Octets.Fault → Error
  | .hex fault => .notHex subject fault
  | .length expected actual => .malformed context (.valueLength subject expected actual)

end Error

/-! ## Outcomes -/

namespace Outcome

variable {ε ε' α β : Type}

theorem pure_eq_ok {value result : α} :
    (pure value : Except ε α) = .ok result ↔ value = result := by
  constructor
  · intro h
    cases h
    rfl
  · intro h
    rw [h]
    rfl

/-- Two steps in turn succeed exactly if both do. -/
theorem bind_eq_ok {first : Except ε α} {next : α → Except ε β} {result : β} :
    (first >>= next) = .ok result ↔ ∃ value, first = .ok value ∧ next value = .ok result := by
  cases first with
  | error fault =>
    constructor
    · intro h
      cases h
    · rintro ⟨value, h, _⟩
      cases h
  | ok value =>
    constructor
    · intro h
      exact ⟨value, rfl, h⟩
    · rintro ⟨_, h, last⟩
      cases h
      exact last

/-- What becomes of the result of an outcome is without effect on its success. -/
theorem map_eq_ok {outcome : Except ε α} {change : α → β} {result : β} :
    outcome.map change = .ok result ↔ ∃ value, outcome = .ok value ∧ change value = result := by
  cases outcome with
  | error fault =>
    constructor
    · intro h
      cases h
    · rintro ⟨value, h, _⟩
      cases h
  | ok value =>
    constructor
    · intro h
      exact ⟨value, rfl, Except.ok.inj h⟩
    · rintro ⟨_, h, rfl⟩
      cases h
      rfl

/-- What becomes of the errors of an outcome is without effect on its success. -/
theorem mapError_eq_ok {outcome : Except ε α} {change : ε → ε'} {result : α} :
    outcome.mapError change = .ok result ↔ outcome = .ok result := by
  cases outcome with
  | error fault =>
    constructor
    · intro h
      cases h
    · intro h
      cases h
  | ok value =>
    constructor
    · intro h
      cases h
      rfl
    · intro h
      cases h
      rfl

/-- An error that was changed is what one of the outcome becomes. -/
theorem mapError_eq_error {outcome : Except ε α} {change : ε → ε'} {error : ε'} :
    outcome.mapError change = .error error
      ↔ ∃ fault, outcome = .error fault ∧ change fault = error := by
  cases outcome with
  | ok value =>
    constructor
    · intro h
      cases h
    · rintro ⟨fault, h, _⟩
      cases h
  | error fault =>
    constructor
    · intro h
      exact ⟨fault, rfl, Except.error.inj h⟩
    · rintro ⟨_, h, changed⟩
      cases h
      exact congrArg Except.error changed

/-- Errors that stay apart when they are changed are changed from the same errors. -/
theorem mapError_eq_error_of_injective {outcome : Except ε α} {change : ε → ε'}
    (injective : ∀ left right, change left = change right → left = right) {fault : ε} :
    outcome.mapError change = .error (change fault) ↔ outcome = .error fault := by
  rw [mapError_eq_error]
  constructor
  · rintro ⟨other, refused, same⟩
    rwa [← injective other fault same]
  · exact fun refused => ⟨fault, refused, rfl⟩

/-- The error of an outcome that is one. -/
def error? : Except ε α → Option ε
  | .ok _ => none
  | .error fault => some fault

theorem error?_eq_some {outcome : Except ε α} {fault : ε} :
    error? outcome = some fault ↔ outcome = .error fault := by
  cases outcome with
  | error other => simp [error?]
  | ok value => simp [error?]

theorem error?_eq_none {outcome : Except ε α} :
    error? outcome = none ↔ ∃ value, outcome = .ok value := by
  cases outcome with
  | error fault => simp [error?]
  | ok value => simp [error?]

/-- What becomes of the result of an outcome is without effect on its error. -/
theorem error?_map (outcome : Except ε α) (change : α → β) :
    error? (outcome.map change) = error? outcome := by
  cases outcome with
  | error fault => rfl
  | ok value => rfl

/-- Of two steps in turn the first one that fails tells the error. -/
theorem error?_bind {first : Except ε α} {next : α → Except ε β} {later : Option ε}
    (h : ∀ value, first = .ok value → error? (next value) = later) :
    error? (first >>= next) = (error? first).or later := by
  cases first with
  | error fault => rfl
  | ok value => exact h value rfl

/-- Of a list the first element with an answer counts, and so its head comes first. -/
theorem findSome?_cons_eq_or (f : α → Option β) (a : α) (rest : List α) :
    (a :: rest).findSome? f = (f a).or (rest.findSome? f) := by
  rw [List.findSome?_cons]
  cases f a with
  | none => rfl
  | some b => rfl

end Outcome

namespace Octets

/-- The value with the given bytes, or an error about `subject`. -/
def parseBytes (role : Role) (subject : Subject) (bytes : Bytes) : Except Error (Octets role) :=
  (ofBytes role bytes).mapError (Error.ofFault subject)

/-- The value with the given hexadecimal text, or an error about `subject`. -/
def parseHex (role : Role) (subject : Subject) (text : String) : Except Error (Octets role) :=
  (ofHex role text).mapError (Error.ofFault subject)

@[simp] theorem parseHex_toHex {role : Role} (subject : Subject) (value : Octets role) :
    parseHex role subject value.toHex = .ok value := by
  rw [parseHex, ofHex_toHex]
  rfl

/-- A key or a nonce is read as the ciphers read it, with their errors told of `subject`. -/
theorem parseHex_eq_materialOfHex (role : Role) (subject : Subject) (text : String) :
    parseHex role subject text
      = (materialOfHex role text).mapError fun error => (Error.ofCipher error).about subject := by
  unfold parseHex materialOfHex
  cases ofHex role text with
  | ok value => rfl
  | error fault => exact congrArg Except.error (Error.about_ofCipher subject role fault).symm

/-- Two bytes of text stand for one of a value. -/
theorem length_of_parseHex {role : Role} {subject : Subject} {text : String} {value : Octets role}
    (h : parseHex role subject text = .ok value) : (Utf8.encode text).length = 2 * role.size := by
  rw [Hex.length_of_decode (ofHex_eq_ok.1 (Outcome.mapError_eq_ok.1 h)), value.length_toList]

end Octets

end SealedEnvelope
