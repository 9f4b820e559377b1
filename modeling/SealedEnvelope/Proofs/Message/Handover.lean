import SealedEnvelope.Proofs.Message.RoundTrip

/-!
# What a file hands over (SPEC_FULL §4.3, §6)

A file can be made of a stored blob of any purpose, but of the blob only the key, the identifier and
the size travel: the receiver takes it for one that was sealed as a file.  The receiver therefore
opens what the sender sealed as far as the sender sealed it under the nonce of files.
-/

set_option autoImplicit false

namespace SealedEnvelope

/-! ## Nonces of purposes -/

theorem Blob.Built.nonce_of_file {blob : Blob} (built : blob.Built)
    (purpose : blob.purpose = .file) : blob.nonce = fileNonce :=
  (Blob.built_iff.1 built).1 purpose

/-- No thumbnail is sealed under the nonce of files. -/
theorem Blob.Built.nonce_of_thumbnail {blob : Blob} (built : blob.Built)
    (purpose : blob.purpose = .thumbnail) : blob.nonce ≠ fileNonce := by
  rw [(Blob.built_iff.1 built).2 purpose]
  decide

/-! ## Receiving -/

namespace File

/-- What can be stored can be handed over. -/
theorem BuiltOn.built {stored : StoredBlob} {thumbnail : Option StoredBlob} {file : File}
    (built : BuiltOn stored thumbnail file) (storedBuilt : stored.Built) : file.Built := by
  obtain ⟨same, _⟩ := built.fields_eq
  rw [built_iff, same]
  exact storedBuilt

/-- The receiver of a file takes its blob for one that was sealed as a file. -/
theorem BuiltOn.received_stored {stored : StoredBlob} {thumbnail : Option StoredBlob} {file : File}
    (built : BuiltOn stored thumbnail file) :
    file.received.stored = ⟨Blob.file stored.blob.key, stored.id, stored.size⟩ := by
  obtain ⟨same, _⟩ := built.fields_eq
  rw [received, same]

end File

/-- What is sealed under the nonce of files is opened by whoever takes it for a file. -/
theorem Blob.decrypt_file_encrypt {blob : Blob} (nonce : blob.nonce = fileNonce)
    (contents : Bytes) : (Blob.file blob.key).decrypt (blob.encrypt contents) = .ok contents := by
  have same : blob.encrypt contents = (Blob.file blob.key).encrypt contents := by
    rw [encrypt, nonce]
    rfl
  rw [same, decrypt_encrypt]

namespace Message

/-- A file that is made of a stored blob is decoded to one with the key, the identifier and the size
of that blob, and with the nonce of files.  So the nonce is that of the blob exactly if the blob has
the nonce of files, which all files have and no thumbnail has; and then what the sender sealed is
opened. -/
theorem decode_encode_file_of_builtOn {stored : StoredBlob} {thumbnail : Option StoredBlob}
    {file : File} (storedBuilt : stored.Built) (built : File.BuiltOn stored thumbnail file) :
    ∃ received, decode (Message.file file).encode = .ok (.file received)
      ∧ received.stored.blob.key = stored.blob.key
      ∧ received.stored.id = stored.id
      ∧ received.stored.size = stored.size
      ∧ received.stored.blob.nonce = fileNonce
      ∧ (received.stored.blob.nonce = stored.blob.nonce ↔ stored.blob.nonce = fileNonce)
      ∧ (stored.blob.purpose = .file → stored.blob.nonce = fileNonce)
      ∧ (stored.blob.purpose = .thumbnail → stored.blob.nonce ≠ fileNonce)
      ∧ (stored.blob.nonce = fileNonce →
        ∀ contents, received.stored.decrypt (stored.blob.encrypt contents) = .ok contents) := by
  obtain ⟨blobBuilt, _⟩ := StoredBlob.built_iff.1 storedBuilt
  have read := decode_encode_received (.file (built.built storedBuilt))
  have taken := built.received_stored
  refine ⟨file.received, read, ?_⟩
  rw [taken]
  exact ⟨rfl, rfl, rfl, rfl, eq_comm, blobBuilt.nonce_of_file, blobBuilt.nonce_of_thumbnail,
    Blob.decrypt_file_encrypt⟩

/-- An image that happens to be sealed under the nonce of files is opened by the receiver of a file
that is made of it. -/
theorem decode_encode_file_of_image :
    let image : StoredBlob :=
      ⟨Blob.image ⟨List.replicate 32 7, rfl⟩ fileNonce, ⟨Bytes.zeros 16, rfl⟩, 19⟩
    let file := (File.make image "image/png" .sticker).withName "\"π\"\n"
    ∃ received, decode (Message.file file).encode = .ok (.file received)
      ∧ received.stored.blob.nonce = image.blob.nonce
      ∧ received.stored.decrypt (image.blob.encrypt [1, 2, 3]) = .ok [1, 2, 3] := by
  intro image file
  have storedBuilt : image.Built := StoredBlob.built_iff.2 ⟨.image _ _, by decide⟩
  have built : File.BuiltOn image none file := .withName (.make _ _) _
  obtain ⟨received, read, _, _, _, _, nonces, _, _, opened⟩ :=
    decode_encode_file_of_builtOn storedBuilt built
  exact ⟨received, read, nonces.2 rfl, opened rfl [1, 2, 3]⟩

/-- A file that is made of a thumbnail is received with another nonce, and what was sealed as a
thumbnail is refused. -/
theorem decode_encode_file_of_thumbnail :
    let thumbnail : StoredBlob :=
      ⟨(Blob.file ⟨List.replicate 32 7, rfl⟩).thumbnail, ⟨Bytes.zeros 16, rfl⟩, 19⟩
    let file := File.make thumbnail "image/png" .media
    thumbnail.Built ∧ File.BuiltOn thumbnail none file
      ∧ decode (Message.file file).encode = .ok (.file file.received)
      ∧ file.received.stored.blob.nonce ≠ thumbnail.blob.nonce
      ∧ file.received.stored.decrypt (thumbnail.blob.encrypt [1, 2, 3])
        = .error .notAuthentic := by
  intro thumbnail file
  have storedBuilt : thumbnail.Built :=
    StoredBlob.built_iff.2 ⟨.thumbnail (.file _), by decide⟩
  have built : File.BuiltOn thumbnail none file := .make _ _
  have refused : Outcome.error? (file.received.stored.decrypt (thumbnail.blob.encrypt [1, 2, 3]))
      = some .notAuthentic := by
    decide +kernel
  exact ⟨storedBuilt, built, decode_encode_received (.file (built.built storedBuilt)), by decide,
    Outcome.error?_eq_some.1 refused⟩

end Message

end SealedEnvelope
