import SealedEnvelope.Proofs.Envelope.RoundTrip
import SealedEnvelope.Proofs.Message.Decoding

/-!
# Attachments opened (SPEC_FULL §4.3)

An attachment is sealed outside the envelope that names it.  What the receiver needs to open it
comes from three places: the key of a file and the nonce of an image travel in the message, the
nonces of files and thumbnails are fixed, and the key of an image is agreed on once more.
-/

set_option autoImplicit false

namespace SealedEnvelope

variable {left right : KeyPair}

/-! ## Blobs rebuilt -/

/-- The receiver of an image rebuilds the stored blob that its sender had. -/
theorem Image.storedFor_ofStored (commute : left.Commute right) {source : RandomSource}
    {stored : StoredBlob}
    (h : stored.blob = (Blob.newImage left.privateKey right.publicKey source).1) :
    (Image.ofStored stored).storedFor right.privateKey left.publicKey = stored := by
  obtain ⟨blob, id, size⟩ := stored
  obtain rfl : blob = _ := h
  unfold storedFor
  rw [commute.agree_eq]
  rfl

/-- A file names its thumbnail, which has the key of the file. -/
theorem File.BuiltOn.storedThumbnail_eq {stored thumbnail : StoredBlob} {file : File}
    (built : File.BuiltOn stored (some thumbnail) file) :
    file.storedThumbnail = some ⟨stored.thumbnail, thumbnail.id, stored.size⟩ := by
  obtain ⟨same, named⟩ := built.fields_eq
  rw [File.storedThumbnail, named, same]
  rfl

/-! ## Messages delivered -/

namespace Envelope

variable {limit : Nat} {source sealing : RandomSource} {envelope : Envelope}

/-- A message that its encoding carries whole reaches the other of two pairs that agree on a key. -/
theorem decrypt_of_wellFormed (commute : left.Commute right) {message : Message}
    (wellFormed : message.WellFormed)
    (sealed : (encrypt message left.privateKey right.publicKey limit sealing).1 = .ok envelope) :
    envelope.decrypt left.publicKey right.privateKey = .ok message :=
  decrypt_of_agree wellFormed.decode_encode sealed commute.agree_eq

/-- What a stored image holds is read by whoever receives the reference to it. -/
theorem image_arrives (commute : left.Commute right) {id : BlobId} {size : Nat}
    {stored : StoredBlob}
    (h : (Blob.newImage left.privateKey right.publicKey source).1.stored id size = .ok stored)
    (sealed : (encrypt (.image (Image.ofStored stored)) left.privateKey right.publicKey limit
      sealing).1 = .ok envelope) (contents : Bytes) :
    ∃ received, envelope.decrypt left.publicKey right.privateKey = .ok (.image received)
      ∧ (received.storedFor right.privateKey left.publicKey).decrypt
          ((Blob.newImage left.privateKey right.publicKey source).1.encrypt contents)
        = .ok contents := by
  have built : stored.Built := .stored (.image _ _) h
  have wellFormed : (Message.image (Image.ofStored stored)).WellFormed :=
    (StoredBlob.built_iff.1 built).2
  obtain ⟨_, rfl⟩ := Blob.stored_eq_ok.1 h
  refine ⟨_, decrypt_of_wellFormed commute wellFormed sealed, ?_⟩
  rw [Image.storedFor_ofStored commute rfl]
  exact Blob.decrypt_encrypt _ contents

/-- What a stored file and its stored thumbnail hold is read by whoever receives the file. -/
theorem file_arrives (commute : left.Commute right) {id thumbnailId : BlobId}
    {size thumbnailSize : Nat} {stored thumbnail : StoredBlob} {file : File}
    (h : (Blob.newFile source).1.stored id size = .ok stored)
    (hThumbnail : (Blob.newFile source).1.thumbnail.stored thumbnailId thumbnailSize
      = .ok thumbnail)
    (built : File.BuiltOn stored (some thumbnail) file)
    (sealed : (encrypt (.file file) left.privateKey right.publicKey limit sealing).1
      = .ok envelope) (contents preview : Bytes) :
    ∃ received, envelope.decrypt left.publicKey right.privateKey = .ok (.file received)
      ∧ received.stored.decrypt ((Blob.newFile source).1.encrypt contents) = .ok contents
      ∧ ∃ shown, received.storedThumbnail = some shown ∧ shown.id = thumbnailId
        ∧ shown.decrypt ((Blob.newFile source).1.thumbnail.encrypt preview) = .ok preview := by
  have storedBuilt : stored.Built := .stored (.file _) h
  have shown := built.storedThumbnail_eq
  obtain ⟨same, _⟩ := built.fields_eq
  obtain ⟨_, rfl⟩ := Blob.stored_eq_ok.1 h
  obtain ⟨_, rfl⟩ := Blob.stored_eq_ok.1 hThumbnail
  have wellFormed : file.stored.blob = Blob.file file.stored.blob.key
      ∧ file.stored.size.toNat ≤ maxBlobSize := by
    rw [same]
    exact ⟨rfl, (StoredBlob.built_iff.1 storedBuilt).2⟩
  refine ⟨file, decrypt_of_wellFormed commute wellFormed sealed, ?_, _, shown, rfl, ?_⟩
  · rw [same]
    exact Blob.decrypt_encrypt _ contents
  · exact Blob.decrypt_encrypt _ preview

/-- Attachments arrive.  If two pairs reach the same point, an image that one of them seals for the
other with a fresh nonce, and a file and its thumbnail that are sealed with a fresh key, are opened
to their contents with what the other finds in the envelope; the thumbnail is there under its own
identifier. -/
theorem attachments_arrive (commute : left.Commute right) (source sealing : RandomSource)
    (limit : Nat) (contents preview : Bytes) :
    (∀ id size stored envelope,
      let image := (Blob.newImage left.privateKey right.publicKey source).1
      image.stored id size = .ok stored →
      (encrypt (.image (Image.ofStored stored)) left.privateKey right.publicKey limit sealing).1
        = .ok envelope →
      ∃ received, envelope.decrypt left.publicKey right.privateKey = .ok (.image received)
        ∧ (received.storedFor right.privateKey left.publicKey).decrypt (image.encrypt contents)
          = .ok contents)
    ∧ ∀ id size thumbnailId thumbnailSize stored thumbnail file envelope,
      let blob := (Blob.newFile source).1
      blob.stored id size = .ok stored →
      blob.thumbnail.stored thumbnailId thumbnailSize = .ok thumbnail →
      File.BuiltOn stored (some thumbnail) file →
      (encrypt (.file file) left.privateKey right.publicKey limit sealing).1 = .ok envelope →
      ∃ received, envelope.decrypt left.publicKey right.privateKey = .ok (.file received)
        ∧ received.stored.decrypt (blob.encrypt contents) = .ok contents
        ∧ ∃ shown, received.storedThumbnail = some shown ∧ shown.id = thumbnailId
          ∧ shown.decrypt (blob.thumbnail.encrypt preview) = .ok preview := by
  constructor
  · intro id size stored envelope image h sealed
    exact image_arrives commute h sealed contents
  · intro id size thumbnailId thumbnailSize stored thumbnail file envelope blob h hThumbnail built
      sealed
    exact file_arrives commute h hThumbnail built sealed contents preview

/-- A photograph, and a document with a cover, sent by one of two participants to the other. -/
theorem attachments_arrive_photograph_and_document :
    let left := KeyPair.ofPrivateKey ⟨List.replicate 32 1, rfl⟩
    let right := KeyPair.ofPrivateKey ⟨List.replicate 32 2, rfl⟩
    let source : RandomSource := ⟨List.replicate 32 3⟩
    let id : BlobId := ⟨List.replicate 16 4, rfl⟩
    let coverId : BlobId := ⟨List.replicate 16 5, rfl⟩
    let image := (Blob.newImage left.privateKey right.publicKey source).1
    let blob := (Blob.newFile source).1
    let file := ((File.make ⟨blob, id, 20⟩ "application/pdf" .media).withName "π.pdf").withThumbnail
      ⟨blob.thumbnail, coverId, 19⟩
    ∃ first second receivedImage receivedFile,
      (encrypt (.image (Image.ofStored ⟨image, id, 18⟩)) left.privateKey right.publicKey 4000
        ⟨[]⟩).1 = .ok first
      ∧ first.decrypt left.publicKey right.privateKey = .ok (.image receivedImage)
      ∧ (receivedImage.storedFor right.privateKey left.publicKey).decrypt (image.encrypt [7, 8])
        = .ok [7, 8]
      ∧ (encrypt (.file file) left.privateKey right.publicKey 4000 ⟨[]⟩).1 = .ok second
      ∧ second.decrypt left.publicKey right.privateKey = .ok (.file receivedFile)
      ∧ receivedFile.stored.decrypt (blob.encrypt [7, 8]) = .ok [7, 8]
      ∧ ∃ shown, receivedFile.storedThumbnail = some shown ∧ shown.id = coverId
        ∧ shown.decrypt (blob.thumbnail.encrypt [9]) = .ok [9] := by
  intro left right source id coverId image blob file
  have commute : left.Commute right := by decide +kernel
  obtain ⟨images, files⟩ := attachments_arrive commute source ⟨[]⟩ 4000 [7, 8] [9]
  obtain ⟨first, firstSealed⟩ := exists_encrypt_eq_ok
    (.image (Image.ofStored ⟨image, id, 18⟩)) left.privateKey right.publicKey ⟨[]⟩
    (by decide +kernel : _ ≤ min 4000 maxContentLength)
  obtain ⟨second, secondSealed⟩ := exists_encrypt_eq_ok (.file file) left.privateKey
    right.publicKey ⟨[]⟩ (by decide +kernel : _ ≤ min 4000 maxContentLength)
  have built : File.BuiltOn ⟨blob, id, 20⟩ (some ⟨blob.thumbnail, coverId, 19⟩) file :=
    .withThumbnail (.withName (.make _ _) _) _
  obtain ⟨receivedImage, imageOpened, imageRead⟩ := images id 18 _ first rfl firstSealed
  obtain ⟨receivedFile, fileOpened, fileRead, cover⟩ :=
    files id 20 coverId 19 _ _ file second rfl rfl built secondSealed
  exact ⟨first, second, receivedImage, receivedFile, firstSealed, imageOpened, imageRead,
    secondSealed, fileOpened, fileRead, cover⟩

end Envelope

end SealedEnvelope
