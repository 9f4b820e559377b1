import SealedEnvelope.Proofs.Message.Acceptance

/-!
# Attachments that a program can hold (SPEC_FULL §4.3)

A program makes its blobs, stored blobs, images and files in a run of calls, each of what it holds
already, of a random source or of bytes that it was sent.  Most of the calls check nothing: that
every nonce is the one of its purpose and that every size fits its field is kept by each of them,
and so it holds after every run.  Nothing else is kept: whatever has this property is held after
some run.
-/

set_option autoImplicit false

namespace SealedEnvelope

namespace Blob

/-- A blob has the nonce that is fixed for its purpose, if one is. -/
def NonceFitsPurpose (blob : Blob) : Prop :=
  (blob.purpose = .file → blob.nonce = fileNonce)
    ∧ (blob.purpose = .thumbnail → blob.nonce = thumbnailNonce)

end Blob

/-- The encoding of an image that can be made has no sign in the field of the size, and is read
back, alone and as a message. -/
theorem Image.Built.decode_encode {image : Image} (built : image.Built) :
    (∃ top, image.encode[16]? = some top ∧ top < 0x80)
      ∧ Image.decode image.encode = .ok image
      ∧ Message.decode (Message.image image).encode = .ok (.image image) := by
  have read : Image.decode image.encode = .ok image :=
    Image.decode_eq_ok.2 ⟨rfl, Image.built_iff.1 built⟩
  refine ⟨(Image.exists_decode_eq_ok.1 ⟨image, read⟩).2, read, ?_⟩
  exact Message.decode_eq_ok.2 ⟨.image, image.encode, rfl, congrArg (Except.map Message.image) read⟩

/-- A value that stands for an attachment. -/
inductive Attachment where
  | blob (blob : Blob)
  | stored (stored : StoredBlob)
  | image (image : Image)
  | file (file : File)

namespace Attachment

/-! ## Runs -/

/-- What one call can make of the values that a program holds. -/
inductive Makes (held : List Attachment) : Attachment → Prop
  | knownFile (key : SymmetricKey) : Makes held (.blob (Blob.file key))
  | knownImage (key : SymmetricKey) (nonce : Nonce) : Makes held (.blob (Blob.image key nonce))
  | newFile (source : RandomSource) : Makes held (.blob (Blob.newFile source).1)
  | newImage (sender : PrivateKey) (receiver : PublicKey) (source : RandomSource) :
    Makes held (.blob (Blob.newImage sender receiver source).1)
  | thumbnail {blob : Blob} (mem : .blob blob ∈ held) : Makes held (.blob blob.thumbnail)
  | store {blob : Blob} {id : BlobId} {size : Nat} {stored : StoredBlob} (mem : .blob blob ∈ held)
    (h : blob.stored id size = .ok stored) : Makes held (.stored stored)
  | blobOfStored {stored : StoredBlob} (mem : .stored stored ∈ held) :
    Makes held (.blob stored.blob)
  | thumbnailOfStored {stored : StoredBlob} (mem : .stored stored ∈ held) :
    Makes held (.blob stored.thumbnail)
  | imageOfStored {stored : StoredBlob} (mem : .stored stored ∈ held) :
    Makes held (.image (Image.ofStored stored))
  | storedOfImage {image : Image} (mem : .image image ∈ held) (key : SymmetricKey) :
    Makes held (.stored (image.stored key))
  | storedForImage {image : Image} (mem : .image image ∈ held) (receiver : PrivateKey)
    (sender : PublicKey) : Makes held (.stored (image.storedFor receiver sender))
  | fileOfStored {stored : StoredBlob} (mem : .stored stored ∈ held) (mimeType : String)
    (rendering : Rendering) : Makes held (.file (File.make stored mimeType rendering))
  | fileWithThumbnail {file : File} {thumbnail : StoredBlob} (mem : .file file ∈ held)
    (thumbnailMem : .stored thumbnail ∈ held) : Makes held (.file (file.withThumbnail thumbnail))
  | fileWithName {file : File} (mem : .file file ∈ held) (name : String) :
    Makes held (.file (file.withName name))
  | fileWithDescription {file : File} (mem : .file file ∈ held) (description : String) :
    Makes held (.file (file.withDescription description))
  | fileWithCorrelationId {file : File} (mem : .file file ∈ held) (mark : String) :
    Makes held (.file (file.withCorrelationId mark))
  | storedOfFile {file : File} (mem : .file file ∈ held) : Makes held (.stored file.stored)
  | thumbnailOfFile {file : File} {thumbnail : StoredBlob} (mem : .file file ∈ held)
    (h : file.storedThumbnail = some thumbnail) : Makes held (.stored thumbnail)
  | decodedImage {bytes : Bytes} {image : Image} (h : Message.decode bytes = .ok (.image image)) :
    Makes held (.image image)
  | decodedFile {bytes : Bytes} {file : File} (h : Message.decode bytes = .ok (.file file)) :
    Makes held (.file file)

/-- The values that a program can hold after some calls. -/
inductive Run : List Attachment → Prop
  | start : Run []
  | call {held : List Attachment} {value : Attachment} (before : Run held)
    (made : Makes held value) : Run (value :: held)

/-- A value that a program can hold. -/
def Reachable (value : Attachment) : Prop := ∃ held, Run held ∧ value ∈ held

/-! ## What every call keeps -/

/-- The values that can be made without what others have sent. -/
def Built : Attachment → Prop
  | .blob value => value.Built
  | .stored value => value.Built
  | .image value => value.Built
  | .file value => value.Built

/-- One call makes of values that can be built another one that can. -/
theorem Makes.built {held : List Attachment} {value : Attachment} (made : Makes held value)
    (all : ∀ other ∈ held, other.Built) : value.Built := by
  cases made with
  | knownFile key => exact .file key
  | knownImage key nonce => exact .image key nonce
  | newFile source => exact .file _
  | newImage sender receiver source => exact .image _ _
  | thumbnail mem => exact .thumbnail (all _ mem)
  | store mem h => exact .stored (all _ mem) h
  | blobOfStored mem => exact (StoredBlob.built_iff.1 (all _ mem)).1
  | thumbnailOfStored mem => exact .thumbnail (StoredBlob.built_iff.1 (all _ mem)).1
  | imageOfStored mem => exact .ofStored (all _ mem)
  | storedOfImage mem key => exact Image.stored_built key (Image.built_iff.1 (all _ mem))
  | storedForImage mem receiver sender =>
    exact Image.stored_built _ (Image.built_iff.1 (all _ mem))
  | fileOfStored mem mimeType rendering => exact .make (all _ mem) mimeType rendering
  | fileWithThumbnail mem thumbnailMem => exact .withThumbnail (all _ mem) (all _ thumbnailMem)
  | fileWithName mem name => exact .withName (all _ mem) name
  | fileWithDescription mem description => exact .withDescription (all _ mem) description
  | fileWithCorrelationId mem mark => exact .withCorrelationId (all _ mem) mark
  | storedOfFile mem => exact File.built_iff.1 (all _ mem)
  | thumbnailOfFile mem h => exact File.Built.storedThumbnail (all _ mem) h
  | decodedImage h =>
    cases Message.built_of_decode h with
    | image built => exact built
  | decodedFile h =>
    cases Message.built_of_decode h with
    | file built => exact built

/-- All that a program holds after a run can be built. -/
theorem Run.built {held : List Attachment} (run : Run held) : ∀ value ∈ held, value.Built := by
  induction run with
  | start => exact fun _ mem => absurd mem List.not_mem_nil
  | call before made ih =>
    intro value mem
    rcases List.mem_cons.1 mem with rfl | mem
    · exact made.built ih
    · exact ih value mem

/-! ## What some run makes -/

/-- Every run can go on to hold a value. -/
def InReach (value : Attachment) : Prop :=
  ∀ held, Run held → ∃ after, Run after ∧ held ⊆ after ∧ value ∈ after

/-- A value that one call makes of what is in reach is in reach. -/
theorem InReach.call {value next : Attachment} (inReach : InReach value)
    (makes : ∀ held, value ∈ held → Makes held next) : InReach next := by
  intro held run
  obtain ⟨after, run', kept, mem⟩ := inReach held run
  exact ⟨next :: after, run'.call (makes after mem), fun _ h => .tail next (kept h), .head after⟩

theorem InReach.of_makes {value : Attachment} (makes : ∀ held, Makes held value) :
    InReach value :=
  fun held run => ⟨value :: held, run.call (makes held), fun _ h => .tail value h, .head held⟩

theorem inReach_blob {blob : Blob} (built : blob.Built) : InReach (.blob blob) := by
  induction built with
  | file key => exact .of_makes fun _ => .knownFile key
  | image key nonce => exact .of_makes fun _ => .knownImage key nonce
  | thumbnail _ ih => exact ih.call fun _ mem => .thumbnail mem

theorem inReach_stored {stored : StoredBlob} (built : stored.Built) : InReach (.stored stored) := by
  cases built with
  | stored ofBlob h => exact (inReach_blob ofBlob).call fun _ mem => .store mem h

theorem inReach_file {file : File} (built : file.Built) : InReach (.file file) := by
  induction built with
  | make ofStored mimeType rendering =>
    exact (inReach_stored ofStored).call fun _ mem => .fileOfStored mem mimeType rendering
  | withThumbnail _ ofThumbnail ih =>
    -- the file is still held when its thumbnail has been made
    intro held run
    obtain ⟨middle, run', kept, fileMem⟩ := ih held run
    obtain ⟨after, run'', kept', thumbnailMem⟩ := inReach_stored ofThumbnail middle run'
    exact ⟨_ :: after, run''.call (.fileWithThumbnail (kept' fileMem) thumbnailMem),
      fun _ h => .tail _ (kept' (kept h)), .head after⟩
  | withName _ name ih => exact ih.call fun _ mem => .fileWithName mem name
  | withDescription _ description ih =>
    exact ih.call fun _ mem => .fileWithDescription mem description
  | withCorrelationId _ mark ih => exact ih.call fun _ mem => .fileWithCorrelationId mem mark

/-- The values that runs hold are those that can be built: what others have sent adds none. -/
theorem reachable_iff {value : Attachment} : Reachable value ↔ value.Built := by
  constructor
  · rintro ⟨held, run, mem⟩
    exact run.built value mem
  · intro built
    have inReach : InReach value := by
      cases value with
      | blob blob => exact inReach_blob built
      | stored stored => exact inReach_stored built
      | image image =>
        cases built with
        | ofStored ofStored => exact (inReach_stored ofStored).call fun _ mem => .imageOfStored mem
      | file file => exact inReach_file built
    obtain ⟨held, run, _, mem⟩ := inReach [] .start
    exact ⟨held, run, mem⟩

/-! ## The representation of attachments -/

theorem reachable_blob {blob : Blob} : Reachable (.blob blob) ↔ blob.NonceFitsPurpose :=
  reachable_iff.trans Blob.built_iff

theorem reachable_stored {stored : StoredBlob} :
    Reachable (.stored stored)
      ↔ stored.blob.NonceFitsPurpose ∧ stored.size.toNat ≤ maxBlobSize :=
  reachable_iff.trans (StoredBlob.built_iff.trans (and_congr_left' Blob.built_iff))

/-- The values that can be held after a run of calls are those with the nonce of their purpose and a
size of at most 2³¹ − 1, as far as they have a purpose or a size.  So the field of the size in an
image that is held has no sign, and the image is read back from its encoding.  A thumbnail has the
key of what it goes with, and a size is accepted for a blob exactly if it is within that bound. -/
theorem reachable_representation :
    (∀ blob, Reachable (.blob blob)
      ↔ (blob.purpose = .file → blob.nonce = fileNonce)
        ∧ (blob.purpose = .thumbnail → blob.nonce = thumbnailNonce))
    ∧ (∀ stored, Reachable (.stored stored)
      ↔ stored.blob.NonceFitsPurpose ∧ stored.size.toNat ≤ 2 ^ 31 - 1)
    ∧ (∀ image, Reachable (.image image) ↔ image.size.toNat ≤ 2 ^ 31 - 1)
    ∧ (∀ file, Reachable (.file file)
      ↔ file.stored.blob.NonceFitsPurpose ∧ file.stored.size.toNat ≤ 2 ^ 31 - 1)
    ∧ (∀ image, Reachable (.image image) →
      (∃ top, image.encode[16]? = some top ∧ top < 0x80)
        ∧ Image.decode image.encode = .ok image
        ∧ Message.decode (Message.image image).encode = .ok (.image image))
    ∧ (∀ blob : Blob, blob.thumbnail.key = blob.key)
    ∧ (∀ stored : StoredBlob, stored.thumbnail.key = stored.blob.key)
    ∧ (∀ (file : File) (thumbnail : StoredBlob), file.storedThumbnail = some thumbnail →
      thumbnail.blob.key = file.stored.blob.key ∧ thumbnail.size = file.stored.size)
    ∧ ∀ (blob : Blob) (id : BlobId) (size : Nat),
      ((∃ stored, blob.stored id size = .ok stored) ↔ size ≤ 2 ^ 31 - 1)
        ∧ ∀ stored, blob.stored id size = .ok stored →
          stored.blob = blob ∧ stored.id = id ∧ stored.size.toNat = size := by
  refine ⟨fun _ => reachable_blob, fun _ => reachable_stored, ?_, ?_, ?_, fun _ => rfl,
    fun _ => rfl, ?_, Blob.stored_exactly⟩
  · intro image
    exact reachable_iff.trans Image.built_iff
  · intro file
    exact reachable_iff.trans (File.built_iff.trans (reachable_iff.symm.trans reachable_stored))
  · intro image reachable
    exact Image.Built.decode_encode (reachable_iff.1 reachable)
  · intro file thumbnail h
    obtain ⟨id, _, rfl⟩ := Option.map_eq_some_iff.1 h
    exact ⟨rfl, rfl⟩

/-- A new image of the greatest size is stored, sent and read back; the next greater size is not
accepted for it, and no run holds an image that has it. -/
theorem reachable_representation_largest_image :
    let sender : PrivateKey := ⟨List.replicate 32 1, rfl⟩
    let receiver : PublicKey := ⟨List.replicate 32 2, rfl⟩
    let id : BlobId := ⟨List.replicate 16 3, rfl⟩
    let blob := (Blob.newImage sender receiver ⟨[]⟩).1
    let stored : StoredBlob := ⟨blob, id, 0x7FFFFFFF⟩
    let image := Image.ofStored stored
    Run [.image image, .stored stored, .blob blob]
      ∧ Message.decode (Message.image image).encode = .ok (.image image)
      ∧ (∃ top, image.encode[16]? = some top ∧ top < 0x80)
      ∧ (¬ ∃ larger, blob.stored id (2 ^ 31) = .ok larger)
      ∧ ¬ Reachable (.image { image with size := 0x80000000 }) := by
  intro sender receiver id blob stored image
  have accepted : blob.stored id (2 ^ 31 - 1) = .ok stored := rfl
  have made : Run [.blob blob] := .call .start (.newImage sender receiver ⟨[]⟩)
  have uploaded : Run [.stored stored, .blob blob] := .call made (.store (by simp) accepted)
  have sent : Run [.image image, .stored stored, .blob blob] :=
    .call uploaded (.imageOfStored (by simp))
  obtain ⟨_, _, bound, _, images, _, _, _, sizes⟩ := reachable_representation
  obtain ⟨sign, _, read⟩ := images image ⟨_, sent, by simp⟩
  refine ⟨sent, read, sign, ?_, ?_⟩
  · exact fun larger => absurd ((sizes blob id (2 ^ 31)).1.1 larger) (by decide)
  · exact fun reachable => absurd ((bound _).1 reachable) (by decide)

end Attachment

end SealedEnvelope
