import SealedEnvelope.Identity
import SealedEnvelope.Text.Split

/-!
# Contact cards (SPEC_FULL §10.1)

A participant is introduced by a text that a camera can read: the identity and the public key.
-/

set_option autoImplicit false

namespace SealedEnvelope

/-- A participant with the public key. -/
structure ContactCard where
  identity : Identity
  publicKey : PublicKey
  deriving DecidableEq

namespace ContactCard

/-- What the text of every card starts with. -/
def start : List Char := ['3', 'm', 'i', 'd', ':']

/-- The characters of the text of a card. -/
def chars (card : ContactCard) : List Char :=
  start ++ card.identity.text.toList ++ ',' :: card.publicKey.toHex.toList

/-- The text of a card. -/
def text (card : ContactCard) : String := String.ofList card.chars

/-- The card with the given text.  The identity ends at the first comma. -/
def parse (text : String) : Except Error ContactCard :=
  match Text.dropStart? start text.toList with
  | none => .error (.malformed .contactCard .missingStart)
  | some rest =>
    match Text.splitFirst? ',' rest with
    | none => .error (.malformed .contactCard .missingSeparator)
    | some (identity, key) => do
      let identity ← Identity.parse (String.ofList identity)
      let publicKey ← Octets.parseHex .publicKey .publicKey (String.ofList key)
      return ⟨identity, publicKey⟩

end ContactCard

end SealedEnvelope
