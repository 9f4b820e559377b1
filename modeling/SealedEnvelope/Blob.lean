import SealedEnvelope.Cipher.PublicBox
import SealedEnvelope.Error

/-!
# Blobs (SPEC_FULL §4.3)

Attachments travel outside the envelope, each sealed under a key and a nonce that depend on what it
is.  A file has a fresh key and a fixed nonce, its thumbnail the same key and another fixed nonce,
and an image the key its two sides agree on and a fresh nonce.  The fixed nonces are safe because
the key of a file seals one file and one thumbnail.
-/

set_option autoImplicit false

namespace SealedEnvelope

/-- The nonce that every file is sealed under. -/
def fileNonce : Nonce := ⟨Bytes.zeros 23 ++ [1], by decide⟩

/-- The nonce that every thumbnail is sealed under. -/
def thumbnailNonce : Nonce := ⟨Bytes.zeros 23 ++ [2], by decide⟩

/-- The greatest size of a blob: it fits a signed field of four bytes. -/
def maxBlobSize : Nat := 2 ^ 31 - 1

/-- What a blob holds. -/
inductive BlobPurpose where
  | image
  | file
  | thumbnail
  deriving DecidableEq, Repr, Inhabited

/-- The name of a purpose in a description. -/
def BlobPurpose.label : BlobPurpose → String
  | .image => "Image"
  | .file => "File"
  | .thumbnail => "Thumbnail"

/-- The key and the nonce of one attachment. -/
structure Blob where
  purpose : BlobPurpose
  key : SymmetricKey
  nonce : Nonce
  deriving DecidableEq

namespace Blob

/-! ## Making blobs -/

/-- The file with a known key. -/
def file (key : SymmetricKey) : Blob := ⟨.file, key, fileNonce⟩

/-- The image with a known key and nonce. -/
def image (key : SymmetricKey) (nonce : Nonce) : Blob := ⟨.image, key, nonce⟩

/-- The thumbnail that goes with a blob. -/
def thumbnail (blob : Blob) : Blob := ⟨.thumbnail, blob.key, thumbnailNonce⟩

/-- A new file with a key from a random source. -/
def newFile (source : RandomSource) : Blob × RandomSource :=
  let (key, source) := source.drawOctets .symmetricKey
  (file key, source)

/-- A new image from `sender` to `receiver` with a nonce from a random source. -/
def newImage (sender : PrivateKey) (receiver : PublicKey) (source : RandomSource) :
    Blob × RandomSource :=
  let (nonce, source) := source.drawOctets .nonce
  (image (PrivateKey.agree sender receiver) nonce, source)

/-! ## Sealing and opening -/

/-- The sealed contents of an attachment. -/
def encrypt (blob : Blob) (contents : Bytes) : Bytes :=
  SecretBox.encrypt blob.key blob.nonce contents

/-- The contents of a sealed attachment. -/
def decrypt (blob : Blob) (box : Bytes) : Except Error Bytes :=
  (SecretBox.decrypt blob.key blob.nonce box).mapError Error.ofCipher

/-- A sealed attachment opens to its contents. -/
@[simp] theorem decrypt_encrypt (blob : Blob) (contents : Bytes) :
    blob.decrypt (blob.encrypt contents) = .ok contents := by
  exact Outcome.mapError_eq_ok.2 (SecretBox.decrypt_encrypt blob.key blob.nonce contents)

/-- The description of a blob, which keeps its key to itself. -/
def describe (blob : Blob) : String :=
  "Blob \x7b purpose: " ++ blob.purpose.label ++ ", key: " ++ blob.key.describe ++ ", nonce: "
    ++ blob.nonce.describe ++ " \x7d"

end Blob

/-- A blob that the server has stored, with the identifier it was given and its sealed size. -/
structure StoredBlob where
  blob : Blob
  id : BlobId
  size : UInt32
  deriving DecidableEq

namespace StoredBlob

/-- The thumbnail that goes with a stored blob. -/
def thumbnail (stored : StoredBlob) : Blob := stored.blob.thumbnail

/-- The contents of a sealed attachment. -/
def decrypt (stored : StoredBlob) (box : Bytes) : Except Error Bytes := stored.blob.decrypt box

end StoredBlob

/-- The blob as the server has stored it, if its size is not too large to be told. -/
def Blob.stored (blob : Blob) (id : BlobId) (size : Nat) : Except Error StoredBlob :=
  if size ≤ maxBlobSize then .ok ⟨blob, id, UInt32.ofNat size⟩
  else .error (.blobTooLarge maxBlobSize size)

theorem Blob.stored_eq_ok {blob : Blob} {id : BlobId} {size : Nat} {stored : StoredBlob} :
    blob.stored id size = .ok stored
      ↔ size ≤ maxBlobSize ∧ ⟨blob, id, UInt32.ofNat size⟩ = stored := by
  unfold Blob.stored
  split <;> simp [*]

end SealedEnvelope
