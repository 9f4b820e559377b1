import SealedEnvelope.Bytes.Hex

/-!
# Values of a fixed number of bytes (SPEC_FULL §3)

Identifiers, hashes, nonces and keys differ in what they stand for and in their size, and agree in
everything else: they are made of bytes or of hexadecimal text, compared by content, and written in
lower case.
-/

set_option autoImplicit false

namespace SealedEnvelope

/-- What a value of a fixed number of bytes stands for. -/
inductive Role where
  | messageId
  | blobId
  | lookupHash
  | nonce
  | symmetricKey
  | publicKey
  | privateKey
  deriving DecidableEq, Repr, Inhabited

namespace Role

/-- The number of bytes. -/
def size : Role → Nat
  | .messageId => 8
  | .blobId => 16
  | .lookupHash => 32
  | .nonce => 24
  | .symmetricKey => 32
  | .publicKey => 32
  | .privateKey => 32

/-- The name that a value is described by. -/
def label : Role → String
  | .messageId => "MessageId"
  | .blobId => "BlobId"
  | .lookupHash => "Hash"
  | .nonce => "Nonce"
  | .symmetricKey => "SymmetricKey"
  | .publicKey => "X25519PublicKey"
  | .privateKey => "X25519PrivateKey"

/-- Whether the bytes of a value are kept out of descriptions. -/
def isSecret : Role → Bool
  | .symmetricKey => true
  | .privateKey => true
  | _ => false

end Role

/-- A value of as many bytes as its role asks for. -/
structure Octets (role : Role) where
  toList : Bytes
  length_toList : toList.length = role.size
  deriving DecidableEq

/-- The sender's identifier of a message. -/
abbrev MessageId := Octets .messageId

/-- The server's identifier of a blob. -/
abbrev BlobId := Octets .blobId

/-- The keyed hash of a normalized phone number or email address. -/
abbrev LookupHash := Octets .lookupHash

/-- The number that makes two boxes under one key differ. -/
abbrev Nonce := Octets .nonce

/-- The key of a secret box. -/
abbrev SymmetricKey := Octets .symmetricKey

/-- The key of a participant that everyone may know. -/
abbrev PublicKey := Octets .publicKey

/-- The key of a participant that no one else knows. -/
abbrev PrivateKey := Octets .privateKey

namespace Octets

attribute [simp] length_toList

variable {role : Role}

@[ext] theorem ext {left right : Octets role} (h : left.toList = right.toList) : left = right := by
  cases left
  cases right
  simp_all

/-! ## Making values -/

/-- Why bytes or a text make no value. -/
inductive Fault where
  | hex (fault : Hex.Fault)
  | length (expected actual : Nat)
  deriving DecidableEq, Repr, Inhabited

/-- The value with the given bytes. -/
def ofBytes (role : Role) (bytes : Bytes) : Except Fault (Octets role) :=
  if h : bytes.length = role.size then .ok ⟨bytes, h⟩ else .error (.length role.size bytes.length)

/-- The value with the given hexadecimal text. -/
def ofHex (role : Role) (text : String) : Except Fault (Octets role) :=
  match Hex.decode text with
  | .ok bytes => ofBytes role bytes
  | .error fault => .error (.hex fault)

/-! ## Showing and comparing values -/

/-- The hexadecimal text in lower case. -/
def toHex (value : Octets role) : String := Hex.encode value.toList

/-- The description of a value, which keeps a secret to itself. -/
def describe (value : Octets role) : String :=
  if role.isSecret then role.label ++ "([REDACTED])" else role.label ++ "[" ++ value.toHex ++ "]"

/-- The order of the bytes, first byte first. -/
def compare (left right : Octets role) : Ordering := Ord.compare left.toList right.toList

instance : Ord (Octets role) := ⟨compare⟩

instance : Std.TransOrd (Octets role) :=
  inferInstanceAs (Std.TransCmp (compareOn Octets.toList))

/-- No two values are alike in this order. -/
instance : Std.LawfulEqOrd (Octets role) where
  eq_of_compare same := ext (Std.LawfulEqOrd.eq_of_compare same)

/-! ## Reading what was shown -/

theorem ofBytes_toList (value : Octets role) : ofBytes role value.toList = .ok value :=
  dif_pos value.length_toList

/-- A value is read from the texts that its bytes are read from. -/
theorem ofHex_eq_ok {text : String} {value : Octets role} :
    ofHex role text = .ok value ↔ Hex.decode text = .ok value.toList := by
  constructor
  · intro h
    unfold ofHex at h
    split at h
    · rename_i bytes decoded
      unfold ofBytes at h
      split at h
      · cases h
        exact decoded
      · contradiction
    · contradiction
  · intro h
    rw [ofHex, h]
    exact ofBytes_toList value

/-- A value is read back from its hexadecimal text. -/
@[simp] theorem ofHex_toHex (value : Octets role) : ofHex role value.toHex = .ok value :=
  ofHex_eq_ok.2 (Hex.decode_encode value.toList)

end Octets

end SealedEnvelope
