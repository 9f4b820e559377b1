import SealedEnvelope.Identity
import SealedEnvelope.Json.Writer
import SealedEnvelope.Table

/-!
# Bulk lookups (SPEC_FULL §10.2)

Many hashes are asked for in one document, and the matches are answered in another.
-/

set_option autoImplicit false

namespace SealedEnvelope

namespace Lookup

/-! ## The request -/

/-- The characters of the document that asks for hashes of phone numbers and of email addresses. -/
def requestChars (phones emails : List LookupHash) : List Char :=
  let hashes (list : List LookupHash) := Json.writeArray (list.map fun h => Json.writeText h.toHex)
  Json.writeObject [("phoneHashes", hashes phones), ("emailHashes", hashes emails)]

/-- The document that asks for hashes of phone numbers and of email addresses. -/
def request (phones emails : List LookupHash) : String := String.ofList (requestChars phones emails)

/-! ## The response -/

/-- One match as it is answered. -/
structure ResponseItem where
  phoneHash : Option String
  emailHash : Option String
  identity : String
  publicKey : String
  deriving DecidableEq, Repr, Inhabited

namespace ResponseItem

/-- The fields of a match. -/
def fields : List Json.Field :=
  [⟨"phoneHash", Json.Value.isTextOrNull, true⟩,
   ⟨"emailHash", Json.Value.isTextOrNull, true⟩,
   ⟨"identity", Json.Value.isText, false⟩,
   ⟨"publicKey", Json.Value.isText, false⟩]

/-- The match with the given fields. -/
def ofFields (record : Json.Record) : Except Json.Fault ResponseItem := do
  let identity ← record.text "identity"
  let publicKey ← record.text "publicKey"
  return {
    phoneHash := record.text? "phoneHash"
    emailHash := record.text? "emailHash"
    identity, publicKey }

/-- The match that a value holds. -/
def ofValue (value : Json.Value) : Except Json.Fault ResponseItem := do
  let record ← Json.Record.ofValue fields value
  ofFields record

/-- The matches that the items of an array hold. -/
def ofItems : Json.Items → Except Json.Fault (List ResponseItem)
  | .closed => .ok []
  | .broken => .error .malformed
  | .cons head tail => do
    let item ← ofValue head
    let items ← ofItems tail
    return item :: items

/-- The matches that a value holds. -/
def listOfValue : Json.Value → Except Json.Fault (List ResponseItem)
  | .array items => ofItems items
  | _ => .error .malformed

end ResponseItem

/-- A participant that was found, with the public key. -/
structure Match where
  identity : Identity
  publicKey : PublicKey
  deriving DecidableEq

/-- The participant that an item names. -/
def matchOf (item : ResponseItem) : Except Error Match := do
  let identity ← Identity.parse item.identity
  let publicKey ← Octets.parseHex .publicKey .publicKey item.publicKey
  return ⟨identity, publicKey⟩

/-- The hash that a text of an item gives, if there is one. -/
def hashOf : Option String → Except Error (List LookupHash)
  | none => .ok []
  | some text => do
    let hash ← Octets.parseHex .lookupHash .lookupHash text
    return [hash]

/-- The hashes that an item was found by, each with its participant.  The participant is looked at
before the hashes. -/
def entriesOf (item : ResponseItem) : Except Error (List (LookupHash × Match)) := do
  let found ← matchOf item
  let phone ← hashOf item.phoneHash
  let email ← hashOf item.emailHash
  return (phone ++ email).map fun hash => (hash, found)

/-- The entries of all items, in order. -/
def entriesOfAll : List ResponseItem → Except Error (List (LookupHash × Match))
  | [] => .ok []
  | item :: items => do
    let first ← entriesOf item
    let others ← entriesOfAll items
    return first ++ others

/-- The participants that a response names, by the hashes that found them. -/
def readResponse (body : String) : Except Error (Table LookupHash Match) :=
  match Json.document ResponseItem.listOfValue (Utf8.encode body) with
  | .error fault => .error (.malformed .bulkResponse (.notRecord fault))
  | .ok items => (entriesOfAll items).map Table.ofList

end Lookup

end SealedEnvelope
