import SealedEnvelope.Blob

/-!
# Images (SPEC_FULL §6)

An image message names a stored image and the nonce it was sealed under.  The key does not travel:
the receiver agrees on it with the sender.
-/

set_option autoImplicit false

namespace SealedEnvelope

/-- A reference to a stored image. -/
structure Image where
  id : BlobId
  size : UInt32
  nonce : Nonce
  deriving DecidableEq

namespace Image

/-- The reference to a stored blob. -/
def ofStored (stored : StoredBlob) : Image := ⟨stored.id, stored.size, stored.blob.nonce⟩

/-- The stored blob, given the key that its sides agree on. -/
def stored (image : Image) (key : SymmetricKey) : StoredBlob :=
  ⟨Blob.image key image.nonce, image.id, image.size⟩

/-- The stored blob as its receiver rebuilds it. -/
def storedFor (image : Image) (receiver : PrivateKey) (sender : PublicKey) : StoredBlob :=
  image.stored (PrivateKey.agree receiver sender)

/-! ## Encoding -/

/-- The number of bytes of the body of an image message. -/
def bodySize : Nat := 44

/-- The body of an image message: identifier, size and nonce. -/
def encode (image : Image) : Bytes :=
  image.id.toList ++ Word.toBigEndian image.size ++ image.nonce.toList

/-- The size that four bytes give, most significant first. -/
def sizeOf : Bytes → UInt32
  | [a, b, c, d] => Word.ofBigEndian a b c d
  | _ => 0

/-- The image that the body of a message holds.  The field of the size is signed. -/
def decode (body : Bytes) : Except Error Image :=
  if h : body.length = bodySize then
    let size := sizeOf ((body.drop 16).take 4)
    if 2 ^ 31 ≤ size.toNat then
      .error (.malformed .imageMessage (.negativeSize ((size.toNat : Int) - 2 ^ 32)))
    else
      .ok
        { id := ⟨body.take 16, by simp [h, bodySize, Role.size]⟩
          size
          nonce := ⟨body.drop 20, by simp [h, bodySize, Role.size]⟩ }
  else .error (.malformed .imageMessage (.bodyLength bodySize body.length))

/-! ## Description -/

/-- The description of an image. -/
def describe (image : Image) : String :=
  let id := image.id.toHex
  let size := image.size.toNat
  s!"Image[{id}, {size}]"

end Image

end SealedEnvelope
