import SealedEnvelope.Message.Basic

/-!
# Messages that can be built (SPEC_FULL §3)

A program makes blobs, locations, files and messages with a handful of functions.  What those
functions can make is an inductive predicate with a constructor for each of them, and it is the same
as a condition on the fields.
-/

set_option autoImplicit false

namespace SealedEnvelope

/-! ## Blobs -/

/-- The blobs that can be made: files and images of any key, and the thumbnails of blobs. -/
inductive Blob.Built : Blob → Prop
  | file (key : SymmetricKey) : Built (Blob.file key)
  | image (key : SymmetricKey) (nonce : Nonce) : Built (Blob.image key nonce)
  | thumbnail {blob : Blob} (built : Built blob) : Built blob.thumbnail

/-- The blobs that the server can be said to have stored. -/
inductive StoredBlob.Built : StoredBlob → Prop
  | stored {blob : Blob} {id : BlobId} {size : Nat} {stored : StoredBlob} (built : blob.Built)
      (h : blob.stored id size = .ok stored) : Built stored

/-- A blob can be made exactly if it has the nonce of its purpose. -/
theorem Blob.built_iff {blob : Blob} :
    blob.Built ↔ (blob.purpose = .file → blob.nonce = fileNonce)
      ∧ (blob.purpose = .thumbnail → blob.nonce = thumbnailNonce) := by
  constructor
  · intro built
    cases built with
    | file key => exact ⟨fun _ => rfl, fun h => nomatch h⟩
    | image key nonce => exact ⟨fun h => (nomatch h), fun h => nomatch h⟩
    | thumbnail built => exact ⟨fun h => (nomatch h), fun _ => rfl⟩
  · obtain ⟨purpose, key, nonce⟩ := blob
    rintro ⟨ofFile, ofThumbnail⟩
    cases purpose with
    | image => exact .image key nonce
    | file =>
      obtain rfl : nonce = fileNonce := ofFile rfl
      exact .file key
    | thumbnail =>
      obtain rfl : nonce = thumbnailNonce := ofThumbnail rfl
      exact .thumbnail (.file key)

/-- A file blob is known by its key. -/
theorem Blob.Built.eq_file {blob : Blob} (built : blob.Built) (purpose : blob.purpose = .file) :
    blob = Blob.file blob.key := by
  obtain ⟨_, key, nonce⟩ := blob
  obtain rfl : _ = BlobPurpose.file := purpose
  obtain rfl : nonce = fileNonce := (Blob.built_iff.1 built).1 rfl
  rfl

/-- A size is told as it is if it is not too large, and not at all otherwise. -/
theorem Blob.stored_exactly (blob : Blob) (id : BlobId) (size : Nat) :
    ((∃ stored, blob.stored id size = .ok stored) ↔ size ≤ maxBlobSize)
      ∧ ∀ stored, blob.stored id size = .ok stored →
        stored.blob = blob ∧ stored.id = id ∧ stored.size.toNat = size := by
  constructor
  · constructor
    · rintro ⟨stored, h⟩
      exact (Blob.stored_eq_ok.1 h).1
    · intro le
      exact ⟨_, Blob.stored_eq_ok.2 ⟨le, rfl⟩⟩
  · intro stored h
    obtain ⟨le, rfl⟩ := Blob.stored_eq_ok.1 h
    have small : size < UInt32.size := Nat.lt_of_le_of_lt le (by decide)
    exact ⟨rfl, rfl, UInt32.toNat_ofNat_of_lt' small⟩

/-- A stored blob can be made exactly if its blob can and its size can be told. -/
theorem StoredBlob.built_iff {stored : StoredBlob} :
    stored.Built ↔ stored.blob.Built ∧ stored.size.toNat ≤ maxBlobSize := by
  constructor
  · rintro @⟨blob, id, size, _, built, h⟩
    obtain ⟨rfl, _, told⟩ := (blob.stored_exactly id size).2 stored h
    exact ⟨built, told ▸ (Blob.stored_eq_ok.1 h).1⟩
  · rintro ⟨built, le⟩
    have told : stored.blob.stored stored.id stored.size.toNat = .ok stored := by
      rw [Blob.stored, if_pos le, UInt32.ofNat_toNat]
    exact .stored built told

/-! ## Locations -/

/-- The locations that can be made: coordinates, to which an accuracy, an address or a name with an
address are given any number of times. -/
inductive Location.Built : Location → Prop
  | make {latitude longitude : Binary64} {location : Location}
      (h : Location.make latitude longitude = .ok location) : Built location
  | withAccuracy {location next : Location} {accuracy : Binary64} (built : Built location)
      (h : location.withAccuracy accuracy = .ok next) : Built next
  | withAddress {location next : Location} {address : String} (built : Built location)
      (h : location.withAddress address = .ok next) : Built next
  | withNameAndAddress {location next : Location} {name address : String} (built : Built location)
      (h : location.withNameAndAddress name address = .ok next) : Built next

namespace Location

/-- The locations that an encoding can carry. -/
structure WellFormed (location : Location) : Prop where
  latitude : location.latitude.isFinite = true
  longitude : location.longitude.isFinite = true
  accuracy : ∀ accuracy ∈ location.accuracy, accuracy.isFinite = true
  name : ∀ name ∈ location.name, '\n' ∉ name.toList
  address : ∀ address ∈ location.address, '\n' ∉ address.toList
  addressed : location.name.isSome → location.address.isSome

theorem finite_eq_ok {field : LocationField} {number result : Binary64} :
    finite field number = .ok result ↔ number.isFinite = true ∧ number = result := by
  unfold finite
  split <;> simp [*]

theorem singleLine_eq_ok {field : LocationField} {text result : String} :
    singleLine field text = .ok result ↔ '\n' ∉ text.toList ∧ text = result := by
  unfold singleLine
  split <;> simp_all

theorem make_eq_ok {latitude longitude : Binary64} {location : Location} :
    make latitude longitude = .ok location ↔ latitude.isFinite = true ∧ longitude.isFinite = true
      ∧ ⟨latitude, longitude, none, none, none⟩ = location := by
  simp only [make, Outcome.bind_eq_ok, finite_eq_ok, Outcome.pure_eq_ok, and_assoc,
    exists_and_left, exists_eq_left']

theorem withAccuracy_eq_ok {location next : Location} {accuracy : Binary64} :
    location.withAccuracy accuracy = .ok next ↔ accuracy.isFinite = true
      ∧ { location with accuracy := some accuracy } = next := by
  simp only [withAccuracy, Outcome.bind_eq_ok, finite_eq_ok, Outcome.pure_eq_ok, and_assoc,
    exists_and_left, exists_eq_left']

theorem withAddress_eq_ok {location next : Location} {address : String} :
    location.withAddress address = .ok next ↔ '\n' ∉ address.toList
      ∧ { location with name := none, address := some address } = next := by
  simp only [withAddress, Outcome.bind_eq_ok, singleLine_eq_ok, Outcome.pure_eq_ok, and_assoc,
    exists_and_left, exists_eq_left']

theorem withNameAndAddress_eq_ok {location next : Location} {name address : String} :
    location.withNameAndAddress name address = .ok next ↔ '\n' ∉ name.toList
      ∧ '\n' ∉ address.toList
      ∧ { location with name := some name, address := some address } = next := by
  simp only [withNameAndAddress, Outcome.bind_eq_ok, singleLine_eq_ok, Outcome.pure_eq_ok,
    and_assoc, exists_and_left, exists_eq_left']

/-- No step leads out of the locations that an encoding can carry. -/
theorem Built.wellFormed {location : Location} (built : location.Built) : location.WellFormed := by
  induction built with
  | make h =>
    obtain ⟨latitude, longitude, rfl⟩ := make_eq_ok.1 h
    exact ⟨latitude, longitude, nofun, nofun, nofun, nofun⟩
  | withAccuracy _ h ih =>
    obtain ⟨finite, rfl⟩ := withAccuracy_eq_ok.1 h
    exact { ih with accuracy := by rintro _ ⟨⟩; exact finite }
  | withAddress _ h ih =>
    obtain ⟨line, rfl⟩ := withAddress_eq_ok.1 h
    exact { ih with
      name := nofun
      address := by rintro _ ⟨⟩; exact line
      addressed := fun _ => rfl }
  | withNameAndAddress _ h ih =>
    obtain ⟨nameLine, addressLine, rfl⟩ := withNameAndAddress_eq_ok.1 h
    exact { ih with
      name := by rintro _ ⟨⟩; exact nameLine
      address := by rintro _ ⟨⟩; exact addressLine
      addressed := fun _ => rfl }

/-- A location without a name and an address, given the numbers it has. -/
theorem built_of_numbers {latitude longitude : Binary64} {accuracy : Option Binary64}
    (latitudeFinite : latitude.isFinite = true) (longitudeFinite : longitude.isFinite = true)
    (accuracyFinite : ∀ number ∈ accuracy, number.isFinite = true) :
    Built ⟨latitude, longitude, accuracy, none, none⟩ := by
  have made : Built ⟨latitude, longitude, none, none, none⟩ :=
    .make (make_eq_ok.2 ⟨latitudeFinite, longitudeFinite, rfl⟩)
  cases accuracy with
  | none => exact made
  | some number =>
    exact .withAccuracy made (withAccuracy_eq_ok.2 ⟨accuracyFinite number rfl, rfl⟩)

/-- The locations that can be made are those that an encoding can carry. -/
theorem built_iff {location : Location} : location.Built ↔ location.WellFormed := by
  refine ⟨Built.wellFormed, ?_⟩
  obtain ⟨latitude, longitude, accuracy, name, address⟩ := location
  intro wellFormed
  have numbers := built_of_numbers wellFormed.latitude wellFormed.longitude wellFormed.accuracy
  cases address with
  | none =>
    cases name with
    | none => exact numbers
    | some name => exact absurd (wellFormed.addressed rfl) (by simp)
  | some address =>
    have line := wellFormed.address address rfl
    cases name with
    | none => exact .withAddress numbers (withAddress_eq_ok.2 ⟨line, rfl⟩)
    | some name =>
      exact .withNameAndAddress numbers
        (withNameAndAddress_eq_ok.2 ⟨wellFormed.name name rfl, line, rfl⟩)

end Location

/-! ## Images and files -/

/-- The images that can be made: references to stored blobs. -/
inductive Image.Built : Image → Prop
  | ofStored {stored : StoredBlob} (built : stored.Built) : Built (Image.ofStored stored)

/-- The files that can be made: a reference to a stored blob, to which the other fields are given
any number of times. -/
inductive File.Built : File → Prop
  | make {stored : StoredBlob} (built : stored.Built) (mimeType : String) (rendering : Rendering) :
    Built (File.make stored mimeType rendering)
  | withThumbnail {file : File} {thumbnail : StoredBlob} (built : Built file)
      (thumbnailBuilt : thumbnail.Built) : Built (file.withThumbnail thumbnail)
  | withName {file : File} (built : Built file) (name : String) : Built (file.withName name)
  | withDescription {file : File} (built : Built file) (description : String) :
    Built (file.withDescription description)
  | withCorrelationId {file : File} (built : Built file) (mark : String) :
    Built (file.withCorrelationId mark)

/-- The files that can be made of one stored blob, each with the stored thumbnail that it was given
last. -/
inductive File.BuiltOn (stored : StoredBlob) : Option StoredBlob → File → Prop
  | make (mimeType : String) (rendering : Rendering) :
    BuiltOn stored none (File.make stored mimeType rendering)
  | withThumbnail {before : Option StoredBlob} {file : File} (built : BuiltOn stored before file)
      (thumbnail : StoredBlob) : BuiltOn stored (some thumbnail) (file.withThumbnail thumbnail)
  | withName {thumbnail : Option StoredBlob} {file : File} (built : BuiltOn stored thumbnail file)
      (name : String) : BuiltOn stored thumbnail (file.withName name)
  | withDescription {thumbnail : Option StoredBlob} {file : File}
      (built : BuiltOn stored thumbnail file) (description : String) :
    BuiltOn stored thumbnail (file.withDescription description)
  | withCorrelationId {thumbnail : Option StoredBlob} {file : File}
      (built : BuiltOn stored thumbnail file) (mark : String) :
    BuiltOn stored thumbnail (file.withCorrelationId mark)

/-- A file keeps the blob that it was made of and the identifier of its last thumbnail. -/
theorem File.BuiltOn.fields_eq {stored : StoredBlob} {thumbnail : Option StoredBlob} {file : File}
    (built : BuiltOn stored thumbnail file) :
    file.stored = stored ∧ file.thumbnailId = thumbnail.map StoredBlob.id := by
  induction built with
  | make _ _ => exact ⟨rfl, rfl⟩
  | withThumbnail _ _ ih => exact ⟨ih.1, rfl⟩
  | withName _ _ ih => exact ih
  | withDescription _ _ ih => exact ih
  | withCorrelationId _ _ ih => exact ih

/-- What a receiver makes of an image is a stored blob that can be made. -/
theorem Image.stored_built {image : Image} (key : SymmetricKey)
    (le : image.size.toNat ≤ maxBlobSize) : (image.stored key).Built :=
  StoredBlob.built_iff.2 ⟨.image key image.nonce, le⟩

/-- An image can be made exactly if its size can be told. -/
theorem Image.built_iff {image : Image} : image.Built ↔ image.size.toNat ≤ maxBlobSize := by
  constructor
  · rintro ⟨built⟩
    exact (StoredBlob.built_iff.1 built).2
  · intro le
    have key : SymmetricKey := ⟨Bytes.zeros 32, rfl⟩
    exact .ofStored (Image.stored_built key le)

/-- No step changes the blob of a file. -/
theorem File.Built.stored {file : File} (built : file.Built) : file.stored.Built := by
  induction built with
  | make stored _ _ => exact stored
  | withThumbnail _ _ ih => exact ih
  | withName _ _ ih => exact ih
  | withDescription _ _ ih => exact ih
  | withCorrelationId _ _ ih => exact ih

/-- The thumbnail of a stored blob may have any identifier. -/
theorem StoredBlob.Built.thumbnail {stored : StoredBlob} (built : stored.Built) (id : BlobId) :
    StoredBlob.Built ⟨stored.thumbnail, id, stored.size⟩ := by
  obtain ⟨blob, le⟩ := StoredBlob.built_iff.1 built
  exact StoredBlob.built_iff.2 ⟨.thumbnail blob, le⟩

/-- What a file says of its thumbnail is a stored blob that can be made. -/
theorem File.Built.storedThumbnail {file : File} (built : file.Built) {thumbnail : StoredBlob}
    (h : file.storedThumbnail = some thumbnail) : thumbnail.Built := by
  obtain ⟨id, _, rfl⟩ := Option.map_eq_some_iff.1 h
  exact built.stored.thumbnail id

/-- A file can be made exactly if its blob can: the other fields are free. -/
theorem File.built_iff {file : File} : file.Built ↔ file.stored.Built := by
  refine ⟨File.Built.stored, ?_⟩
  obtain ⟨stored, thumbnailId, mimeType, rendering, name, description, mark⟩ := file
  intro built
  have bare : Built ⟨stored, none, mimeType, rendering, none, none, none⟩ := .make built _ _
  have pictured : Built ⟨stored, thumbnailId, mimeType, rendering, none, none, none⟩ := by
    cases thumbnailId with
    | none => exact bare
    | some id => exact .withThumbnail bare (built.thumbnail id)
  have named : Built ⟨stored, thumbnailId, mimeType, rendering, name, none, none⟩ := by
    cases name with
    | none => exact pictured
    | some name => exact .withName pictured name
  have described : Built ⟨stored, thumbnailId, mimeType, rendering, name, description, none⟩ := by
    cases description with
    | none => exact named
    | some description => exact .withDescription named description
  cases mark with
  | none => exact described
  | some mark => exact .withCorrelationId described mark

/-! ## Messages -/

/-- The messages that can be made. -/
inductive Message.Built : Message → Prop
  | text (content : String) : Built (.text content)
  | location {content : Location} (built : content.Built) : Built (.location content)
  | image {content : Image} (built : content.Built) : Built (.image content)
  | file {content : File} (built : content.Built) : Built (.file content)
  | receipt (content : Receipt) : Built (.receipt content)

end SealedEnvelope
