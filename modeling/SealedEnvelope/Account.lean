import SealedEnvelope.Callback
import SealedEnvelope.Json.Writer

/-!
# Accounts (SPEC_FULL §9)

What a participant needs to use the gateway: an identity, the secret that callbacks are signed with,
a private key, and a limit on the size of what is sent.
-/

set_option autoImplicit false

namespace SealedEnvelope

/-- A field of an account. -/
inductive AccountField where
  | identity
  | secret
  | privateKey
  | maxContentLength
  deriving DecidableEq, Repr, Inhabited

/-- The name of a field in a document. -/
def AccountField.name : AccountField → String
  | .identity => "identity"
  | .secret => "secret"
  | .privateKey => "private_key"
  | .maxContentLength => "max_content_length"

/-- The least limit that lets any message through: one of the least padded length. -/
def minContentLength : Nat := Padding.leastTotal + SecretBox.tagSize

/-- Why a field of an account cannot be used. -/
inductive AccountFault where
  | identityForm
  | privateKeyForm
  | contentLengthRange
  /-- The text is no identity. -/
  | identity (error : Error)
  /-- The text is no private key. -/
  | privateKey (error : CipherError)
  deriving DecidableEq, Repr, Inhabited

/-- The field that a fault is about. -/
def AccountFault.field : AccountFault → AccountField
  | .identityForm => .identity
  | .privateKeyForm => .privateKey
  | .contentLengthRange => .maxContentLength
  | .identity _ => .identity
  | .privateKey _ => .privateKey

/-- The wording of a fault. -/
def AccountFault.message : AccountFault → String
  | .identityForm => "identity must be exactly 8 printable ASCII characters"
  | .privateKeyForm => "private key must be 32 bytes of hex"
  | .contentLengthRange =>
    s!"max content length must be between {minContentLength} and {maxContentLength}"
  | .identity error => error.message
  | .privateKey error => error.message

/-- Why an account is refused. -/
inductive AccountError where
  | invalid (fault : AccountFault)
  | missing (field : AccountField)
  | notRecord (fault : Json.Fault)
  deriving DecidableEq, Repr, Inhabited

/-- The wording of an error. -/
def AccountError.message : AccountError → String
  | .invalid fault =>
    "Invalid configuration value for '" ++ fault.field.name ++ "': " ++ fault.message
  | .missing field => "Missing required configuration: " ++ field.name
  | .notRecord fault => "Failed to parse configuration: " ++ fault.message

/-- An account as it is written down; nothing of it needs to be valid. -/
structure Account where
  identityText : String
  secret : String
  privateKeyText : String
  maxContent : Nat
  deriving DecidableEq, Repr, Inhabited

namespace Account

/-- The account that says nothing. -/
def blank : Account := ⟨"", "", "", maxContentLength⟩

/-! ## Validation -/

/-- Checks the fields in order. -/
def validate (account : Account) : Except AccountError Unit :=
  if account.identityText = "" then .error (.missing .identity)
  else if !Identity.isLegal account.identityText then
    .error (.invalid .identityForm)
  else if account.secret = "" then .error (.missing .secret)
  else if account.privateKeyText = "" then .error (.missing .privateKey)
  else
    match Octets.ofHex .privateKey account.privateKeyText with
    | .error _ => .error (.invalid .privateKeyForm)
    | .ok _ =>
      if minContentLength ≤ account.maxContent && account.maxContent ≤ maxContentLength then
        .ok ()
      else
        .error (.invalid .contentLengthRange)

/-- The identity. -/
def identity (account : Account) : Except AccountError Identity :=
  (Identity.parse account.identityText).mapError fun error => .invalid (.identity error)

/-- The private key. -/
def privateKey (account : Account) : Except AccountError PrivateKey :=
  (Octets.materialOfHex .privateKey account.privateKeyText).mapError fun error =>
    .invalid (.privateKey error)

/-- The limit on the size of what is sent; the gateway's own limit holds in any case. -/
def limit (account : Account) : Nat := min account.maxContent maxContentLength

/-- The party that verifies callbacks for an account. -/
def verifier (account : Account) : CallbackVerifier := ⟨account.secret⟩

/-! ## Documents -/

/-- The fields of an account. -/
def fields : List Json.Field :=
  [⟨AccountField.identity.name, Json.Value.isText, true⟩,
   ⟨AccountField.secret.name, Json.Value.isText, true⟩,
   ⟨AccountField.privateKey.name, Json.Value.isText, true⟩,
   ⟨AccountField.maxContentLength.name, Json.Value.isNaturalUpTo (2 ^ 64 - 1), true⟩]

/-- The account with the given fields; those that are missing say nothing. -/
def ofFields (record : Json.Record) : Account :=
  { identityText := (record.text? AccountField.identity.name).getD blank.identityText
    secret := (record.text? AccountField.secret.name).getD blank.secret
    privateKeyText := (record.text? AccountField.privateKey.name).getD blank.privateKeyText
    maxContent := (record.natural? AccountField.maxContentLength.name).getD blank.maxContent }

/-- The account that a value holds. -/
def ofValue (value : Json.Value) : Except Json.Fault Account :=
  (Json.Record.ofValue fields value).map ofFields

/-- The account that a document holds, if it is valid. -/
def ofJson (document : String) : Except AccountError Account := do
  let account ← (Json.document ofValue (Utf8.encode document)).mapError AccountError.notRecord
  account.validate
  return account

/-- The characters of the document of an account. -/
def jsonChars (account : Account) : List Char :=
  Json.writeObject
    [(AccountField.identity.name, Json.writeText account.identityText),
     (AccountField.secret.name, Json.writeText account.secret),
     (AccountField.privateKey.name, Json.writeText account.privateKeyText),
     (AccountField.maxContentLength.name, Json.writeNatural account.maxContent)]

/-- The document of an account. -/
def json (account : Account) : String := String.ofList account.jsonChars

/-- The description of an account, which keeps its secrets to itself. -/
def describe (account : Account) : String :=
  let hidden := Text.quoted "[REDACTED]"
  let length := account.maxContent
  "GatewayConfig \x7b identity: " ++ Text.quoted account.identityText ++ ", secret: " ++ hidden
    ++ ", private_key: " ++ hidden ++ s!", max_content_length: {length} \x7d"

end Account

end SealedEnvelope
