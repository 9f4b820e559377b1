import SealedEnvelope.Blob

/-!
# Keys and nonces kept apart (SPEC_FULL §4.3)

A program makes its attachments in a run of calls: new files, new images, and thumbnails of what it
has made.  If the keys of the files and the nonces of the images are all new, two attachments from
different calls or for different purposes have different keys or nonces, with one exception: the
thumbnails of two images for one pair of participants have the key of the pair and the nonce of all
thumbnails in common.
-/

set_option autoImplicit false

namespace SealedEnvelope

/-! ## Runs -/

/-- The call that an attachment goes back to: which new file or which new image of the run. -/
inductive BlobOrigin where
  | file (number : Nat)
  | image (number : Nat)
  deriving DecidableEq, Repr

/-- An attachment of a run. -/
structure MadeBlob where
  origin : BlobOrigin
  blob : Blob
  deriving DecidableEq

/-- One call of a run.  What is new is drawn from a source of its own, which may be what an earlier
call has left of another one; a thumbnail is that of the attachment at a place of the run, before or
after the server has stored it. -/
inductive BlobCall where
  | newFile (source : RandomSource)
  | newImage (sender : PrivateKey) (receiver : PublicKey) (source : RandomSource)
  | thumbnail (place : Nat)
  | storedThumbnail (place : Nat) (id : BlobId) (size : Nat)

/-- The state of a run: the keys of its new files, the agreed keys and the nonces of its new images,
and all attachments that it has made, each in the order of the calls. -/
structure BlobRun where
  fileKeys : List SymmetricKey
  images : List (SymmetricKey × Nonce)
  made : List MadeBlob

namespace BlobRun

/-- The run before its first call. -/
def start : BlobRun := ⟨[], [], []⟩

/-- The run with one more attachment. -/
def add (run : BlobRun) (origin : BlobOrigin) (blob : Blob) : BlobRun :=
  { run with made := run.made ++ [⟨origin, blob⟩] }

/-- The run after one more call.  A thumbnail of what is not there, or of what is too large to be
stored, is not made. -/
def step (run : BlobRun) : BlobCall → BlobRun
  | .newFile source =>
    let blob := (Blob.newFile source).1
    { run with fileKeys := run.fileKeys ++ [blob.key] }.add (.file run.fileKeys.length) blob
  | .newImage sender receiver source =>
    let blob := (Blob.newImage sender receiver source).1
    { run with images := run.images ++ [(blob.key, blob.nonce)] }.add (.image run.images.length)
      blob
  | .thumbnail place =>
    match run.made[place]? with
    | some original => run.add original.origin original.blob.thumbnail
    | none => run
  | .storedThumbnail place id size =>
    match run.made[place]? with
    | some original =>
      match original.blob.stored id size with
      | .ok stored => run.add original.origin stored.thumbnail
      | .error _ => run
    | none => run

/-- The run of a list of calls. -/
def ofCalls (calls : List BlobCall) : BlobRun := calls.foldl step start

/-- Nothing that a run has drawn was there before: neither a key of a file, nor a nonce of an
image. -/
structure Fresh (run : BlobRun) : Prop where
  fileKeys : run.fileKeys.Nodup
  agreedKeys : ∀ image ∈ run.images, image.1 ∉ run.fileKeys
  nonces : (run.images.map Prod.snd).Nodup
  fixedNonces : ∀ image ∈ run.images, image.2 ≠ fileNonce ∧ image.2 ≠ thumbnailNonce

/-! ## Where attachments come from -/

/-- An attachment is the new file or the new image that it goes back to, or a thumbnail of it. -/
inductive Traced (run : BlobRun) : MadeBlob → Prop
  | file {number : Nat} {key : SymmetricKey} (drawn : run.fileKeys[number]? = some key) :
    Traced run ⟨.file number, .file key⟩
  | fileThumbnail {number : Nat} {key : SymmetricKey}
    (drawn : run.fileKeys[number]? = some key) :
    Traced run ⟨.file number, (Blob.file key).thumbnail⟩
  | image {number : Nat} {key : SymmetricKey} {nonce : Nonce}
    (drawn : run.images[number]? = some (key, nonce)) :
    Traced run ⟨.image number, .image key nonce⟩
  | imageThumbnail {number : Nat} {key : SymmetricKey} {nonce : Nonce}
    (drawn : run.images[number]? = some (key, nonce)) :
    Traced run ⟨.image number, (Blob.image key nonce).thumbnail⟩

/-- The thumbnail of a thumbnail is the thumbnail itself. -/
theorem Traced.thumbnail {run : BlobRun} {made : MadeBlob} (traced : run.Traced made) :
    run.Traced ⟨made.origin, made.blob.thumbnail⟩ := by
  cases traced with
  | file drawn => exact .fileThumbnail drawn
  | fileThumbnail drawn => exact .fileThumbnail drawn
  | image drawn => exact .imageThumbnail drawn
  | imageThumbnail drawn => exact .imageThumbnail drawn

theorem getElem?_append_of_eq_some {α : Type} {drawn more : List α} {number : Nat} {value : α}
    (h : drawn[number]? = some value) : (drawn ++ more)[number]? = some value := by
  rw [List.getElem?_append_left (List.getElem?_eq_some_iff.1 h).1, h]

/-- What an attachment goes back to stays where it is when more is drawn. -/
theorem Traced.of_append {run next : BlobRun} {made : MadeBlob} (traced : run.Traced made)
    {moreKeys : List SymmetricKey} {moreImages : List (SymmetricKey × Nonce)}
    (keys : next.fileKeys = run.fileKeys ++ moreKeys)
    (images : next.images = run.images ++ moreImages) : next.Traced made := by
  cases traced with
  | file drawn => exact .file (keys ▸ getElem?_append_of_eq_some drawn)
  | fileThumbnail drawn => exact .fileThumbnail (keys ▸ getElem?_append_of_eq_some drawn)
  | image drawn => exact .image (images ▸ getElem?_append_of_eq_some drawn)
  | imageThumbnail drawn => exact .imageThumbnail (images ▸ getElem?_append_of_eq_some drawn)

/-- Every attachment of a run goes back to a call of the run. -/
def AllTraced (run : BlobRun) : Prop := ∀ made ∈ run.made, run.Traced made

/-- One more attachment, with which something may have been drawn. -/
theorem AllTraced.add {run next : BlobRun} (all : run.AllTraced) {origin : BlobOrigin}
    {blob : Blob} {moreKeys : List SymmetricKey} {moreImages : List (SymmetricKey × Nonce)}
    (keys : next.fileKeys = run.fileKeys ++ moreKeys)
    (images : next.images = run.images ++ moreImages) (same : next.made = run.made)
    (new : next.Traced ⟨origin, blob⟩) : (next.add origin blob).AllTraced := by
  intro made mem
  have traced : next.Traced made := by
    rcases List.mem_append.1 mem with before | now
    · exact (all made (same ▸ before)).of_append keys images
    · rw [List.mem_singleton.1 now]
      exact new
  exact traced.of_append (List.append_nil _).symm (List.append_nil _).symm

theorem AllTraced.step {run : BlobRun} (all : run.AllTraced) (call : BlobCall) :
    (run.step call).AllTraced := by
  have nothing {α : Type} (drawn : List α) : drawn = drawn ++ [] := (List.append_nil drawn).symm
  cases call with
  | newFile source =>
    refine all.add rfl (nothing _) rfl (.file ?_)
    rw [List.getElem?_concat_length]
    rfl
  | newImage sender receiver source =>
    refine all.add (nothing _) rfl rfl (.image ?_)
    rw [List.getElem?_concat_length]
    rfl
  | thumbnail place =>
    simp only [BlobRun.step]
    split
    · rename_i original found
      have traced := all original (List.mem_of_getElem? found)
      exact all.add (nothing _) (nothing _) rfl traced.thumbnail
    · exact all
  | storedThumbnail place id size =>
    simp only [BlobRun.step]
    split
    · rename_i original found
      have traced := all original (List.mem_of_getElem? found)
      split
      · rename_i stored told
        obtain ⟨_, rfl⟩ := Blob.stored_eq_ok.1 told
        exact all.add (nothing _) (nothing _) rfl traced.thumbnail
      · exact all
    · exact all

theorem AllTraced.foldl_step {run : BlobRun} (all : run.AllTraced) (calls : List BlobCall) :
    (calls.foldl BlobRun.step run).AllTraced := by
  induction calls generalizing run with
  | nil => exact all
  | cons call calls ih => exact ih (all.step call)

theorem allTraced_ofCalls (calls : List BlobCall) : (ofCalls calls).AllTraced :=
  AllTraced.foldl_step (fun _ mem => absurd mem List.not_mem_nil) calls

/-! ## What a key and a nonce tell -/

/-- The purpose of an attachment in a run that draws neither of the fixed nonces. -/
def purposeOf (nonce : Nonce) : BlobPurpose :=
  if nonce = fileNonce then .file
  else if nonce = thumbnailNonce then .thumbnail
  else .image

theorem purposeOf_thumbnailNonce : purposeOf thumbnailNonce = .thumbnail := by
  decide

section Fresh

variable {run : BlobRun} (fresh : run.Fresh)
include fresh

theorem Traced.purpose_eq {made : MadeBlob} (traced : run.Traced made) :
    made.blob.purpose = purposeOf made.blob.nonce := by
  cases traced with
  | file => exact (if_pos rfl).symm
  | fileThumbnail => exact purposeOf_thumbnailNonce.symm
  | @image _ _ nonce drawn =>
    obtain ⟨notFile, notThumbnail⟩ : nonce ≠ fileNonce ∧ nonce ≠ thumbnailNonce :=
      fresh.fixedNonces _ (List.mem_of_getElem? drawn)
    unfold Blob.image purposeOf
    rw [if_neg notFile, if_neg notThumbnail]
  | imageThumbnail => exact purposeOf_thumbnailNonce.symm

omit fresh in
/-- The key of an attachment of a file is the key that was drawn for the file. -/
theorem Traced.fileKey {made : MadeBlob} {number : Nat} (traced : run.Traced made)
    (origin : made.origin = .file number) : run.fileKeys[number]? = some made.blob.key := by
  cases traced with
  | file drawn =>
    cases origin
    exact drawn
  | fileThumbnail drawn =>
    cases origin
    exact drawn
  | image => contradiction
  | imageThumbnail => contradiction

omit fresh in
/-- The key of an attachment of an image is the one that was agreed on for it, and the attachment is
the image itself, under the nonce that was drawn, or its thumbnail. -/
theorem Traced.imageMaterial {made : MadeBlob} {number : Nat} (traced : run.Traced made)
    (origin : made.origin = .image number) :
    ∃ nonce, run.images[number]? = some (made.blob.key, nonce)
      ∧ (made.blob.purpose = .thumbnail
        ∨ made.blob.purpose = .image ∧ made.blob.nonce = nonce) := by
  cases traced with
  | file => contradiction
  | fileThumbnail => contradiction
  | image drawn =>
    cases origin
    exact ⟨_, drawn, .inr ⟨rfl, rfl⟩⟩
  | imageThumbnail drawn =>
    cases origin
    exact ⟨_, drawn, .inl rfl⟩

/-- A key is drawn for one file only. -/
theorem Fresh.file_eq {left right : Nat} {key : SymmetricKey}
    (leftDrawn : run.fileKeys[left]? = some key) (rightDrawn : run.fileKeys[right]? = some key) :
    left = right :=
  (List.getElem?_inj (List.getElem?_eq_some_iff.1 leftDrawn).1 fresh.fileKeys).1
    (leftDrawn.trans rightDrawn.symm)

/-- A nonce is drawn for one image only. -/
theorem Fresh.image_eq {left right : Nat} {leftKey rightKey : SymmetricKey} {nonce : Nonce}
    (leftDrawn : run.images[left]? = some (leftKey, nonce))
    (rightDrawn : run.images[right]? = some (rightKey, nonce)) : left = right := by
  have drawn {number : Nat} {key : SymmetricKey} (h : run.images[number]? = some (key, nonce)) :
      (run.images.map Prod.snd)[number]? = some nonce := by
    rw [List.getElem?_map, h]
    rfl
  exact (List.getElem?_inj (List.getElem?_eq_some_iff.1 (drawn leftDrawn)).1 fresh.nonces).1
    ((drawn leftDrawn).trans (drawn rightDrawn).symm)

/-- No file has a key that was agreed on for an image. -/
theorem Fresh.file_ne_image {file image : Nat} {key : SymmetricKey} {nonce : Nonce}
    (fileDrawn : run.fileKeys[file]? = some key)
    (imageDrawn : run.images[image]? = some (key, nonce)) : False :=
  fresh.agreedKeys _ (List.mem_of_getElem? imageDrawn) (List.mem_of_getElem? fileDrawn)

/-! ## Attachments in common -/

/-- Attachments with one key and one nonce have one purpose, and they come from one call unless they
are thumbnails of images. -/
theorem eq_or_thumbnails_of_material_eq {left right : MadeBlob} (leftTraced : run.Traced left)
    (rightTraced : run.Traced right) (key : left.blob.key = right.blob.key)
    (nonce : left.blob.nonce = right.blob.nonce) :
    left.blob.purpose = right.blob.purpose
      ∧ (left.origin = right.origin
        ∨ left.blob.purpose = .thumbnail
          ∧ ∃ m n, left.origin = .image m ∧ right.origin = .image n) := by
  have purpose : left.blob.purpose = right.blob.purpose := by
    rw [leftTraced.purpose_eq fresh, rightTraced.purpose_eq fresh, nonce]
  refine ⟨purpose, ?_⟩
  cases leftOrigin : left.origin with
  | file m =>
    have leftDrawn := leftTraced.fileKey leftOrigin
    cases rightOrigin : right.origin with
    | file n =>
      have rightDrawn := rightTraced.fileKey rightOrigin
      rw [← key] at rightDrawn
      rw [fresh.file_eq leftDrawn rightDrawn]
      exact .inl rfl
    | image n =>
      obtain ⟨_, rightDrawn, _⟩ := rightTraced.imageMaterial rightOrigin
      rw [← key] at rightDrawn
      exact (fresh.file_ne_image leftDrawn rightDrawn).elim
  | image m =>
    obtain ⟨_, leftDrawn, leftIs⟩ := leftTraced.imageMaterial leftOrigin
    cases rightOrigin : right.origin with
    | file n =>
      have rightDrawn := rightTraced.fileKey rightOrigin
      rw [← key] at rightDrawn
      exact (fresh.file_ne_image rightDrawn leftDrawn).elim
    | image n =>
      obtain ⟨_, rightDrawn, rightIs⟩ := rightTraced.imageMaterial rightOrigin
      rcases leftIs with thumbnail | ⟨isImage, rfl⟩
      · exact .inr ⟨thumbnail, m, n, rfl, rfl⟩
      · rcases rightIs with thumbnail | ⟨_, rfl⟩
        · rw [purpose, thumbnail] at isImage
          contradiction
        · rw [← nonce] at rightDrawn
          rw [fresh.image_eq leftDrawn rightDrawn]
          exact .inl rfl

end Fresh

/-- All thumbnails have one nonce. -/
theorem Traced.nonce_of_thumbnail {run : BlobRun} {made : MadeBlob} (traced : run.Traced made)
    (thumbnail : made.blob.purpose = .thumbnail) : made.blob.nonce = thumbnailNonce := by
  cases traced with
  | file => contradiction
  | fileThumbnail => rfl
  | image => contradiction
  | imageThumbnail => rfl

/-- In a run that draws nothing twice, let two attachments come from different calls or have
different purposes.  They have one key and one nonce exactly if both are thumbnails of images, and
of images for which one key was agreed on. -/
theorem material_eq_iff {calls : List BlobCall} (fresh : (ofCalls calls).Fresh)
    {left right : MadeBlob} (leftMade : left ∈ (ofCalls calls).made)
    (rightMade : right ∈ (ofCalls calls).made)
    (apart : left.origin ≠ right.origin ∨ left.blob.purpose ≠ right.blob.purpose) :
    left.blob.key = right.blob.key ∧ left.blob.nonce = right.blob.nonce
      ↔ left.blob.purpose = .thumbnail ∧ right.blob.purpose = .thumbnail
        ∧ ∃ m n key leftNonce rightNonce, left.origin = .image m ∧ right.origin = .image n
          ∧ (ofCalls calls).images[m]? = some (key, leftNonce)
          ∧ (ofCalls calls).images[n]? = some (key, rightNonce) := by
  have leftTraced := allTraced_ofCalls calls left leftMade
  have rightTraced := allTraced_ofCalls calls right rightMade
  constructor
  · rintro ⟨key, nonce⟩
    obtain ⟨purpose, origin | ⟨thumbnail, m, n, leftOrigin, rightOrigin⟩⟩ :=
      eq_or_thumbnails_of_material_eq fresh leftTraced rightTraced key nonce
    · rcases apart with otherOrigin | otherPurpose
      · exact absurd origin otherOrigin
      · exact absurd purpose otherPurpose
    · obtain ⟨leftNonce, leftDrawn, _⟩ := leftTraced.imageMaterial leftOrigin
      obtain ⟨rightNonce, rightDrawn, _⟩ := rightTraced.imageMaterial rightOrigin
      rw [← key] at rightDrawn
      exact ⟨thumbnail, purpose ▸ thumbnail, m, n, _, leftNonce, rightNonce, leftOrigin,
        rightOrigin, leftDrawn, rightDrawn⟩
  · rintro ⟨leftThumbnail, rightThumbnail, m, n, key, _, _, leftOrigin, rightOrigin, leftAgreed,
      rightAgreed⟩
    obtain ⟨_, leftDrawn, _⟩ := leftTraced.imageMaterial leftOrigin
    obtain ⟨_, rightDrawn, _⟩ := rightTraced.imageMaterial rightOrigin
    rw [leftAgreed] at leftDrawn
    rw [rightAgreed] at rightDrawn
    cases leftDrawn
    refine ⟨?_, ?_⟩
    · exact congrArg Prod.fst (Option.some.inj rightDrawn)
    · rw [leftTraced.nonce_of_thumbnail leftThumbnail,
        rightTraced.nonce_of_thumbnail rightThumbnail]

/-- A file, an image with the key of a pair of participants, and the thumbnail of the file: the
file and its thumbnail differ in their nonces. -/
theorem material_eq_iff_file_and_thumbnail :
    let sender : PrivateKey := ⟨List.replicate 32 1, rfl⟩
    let receiver : PublicKey := ⟨List.replicate 32 2, rfl⟩
    let calls : List BlobCall :=
      [.newFile ⟨List.replicate 32 3⟩, .newImage sender receiver ⟨List.replicate 24 4⟩,
        .thumbnail 0]
    let blob := Blob.file ⟨List.replicate 32 3, rfl⟩
    (ofCalls calls).Fresh
      ∧ (ofCalls calls).made[0]? = some ⟨.file 0, blob⟩
      ∧ (ofCalls calls).made[2]? = some ⟨.file 0, blob.thumbnail⟩
      ∧ ¬ (blob.key = blob.thumbnail.key ∧ blob.nonce = blob.thumbnail.nonce) := by
  intro sender receiver calls blob
  have fresh : (ofCalls calls).Fresh := by
    refine ⟨by decide, ?_, by decide, ?_⟩
    · intro image mem
      rw [List.mem_singleton.1 mem]
      decide +kernel
    · intro image mem
      rw [List.mem_singleton.1 mem]
      decide
  have made : (ofCalls calls).made[0]? = some ⟨.file 0, blob⟩ := rfl
  have thumbnailMade : (ofCalls calls).made[2]? = some ⟨.file 0, blob.thumbnail⟩ := rfl
  refine ⟨fresh, made, thumbnailMade, ?_⟩
  rw [material_eq_iff fresh (List.mem_of_getElem? made) (List.mem_of_getElem? thumbnailMade)
    (.inr (by decide))]
  rintro ⟨thumbnail, _⟩
  contradiction

/-- The thumbnails of two images between the same participants have one key and one nonce, although
nothing is drawn twice and the images come from different calls. -/
theorem thumbnails_of_two_images :
    let sender : PrivateKey := ⟨List.replicate 32 1, rfl⟩
    let receiver : PublicKey := ⟨List.replicate 32 2, rfl⟩
    let calls : List BlobCall :=
      [.newImage sender receiver ⟨List.replicate 24 3⟩,
        .newImage sender receiver ⟨List.replicate 24 4⟩, .thumbnail 0, .thumbnail 1]
    (ofCalls calls).Fresh
      ∧ ∃ left ∈ (ofCalls calls).made, ∃ right ∈ (ofCalls calls).made,
        left.origin ≠ right.origin ∧ left.blob.key = right.blob.key
          ∧ left.blob.nonce = right.blob.nonce := by
  intro sender receiver calls
  let blob : Blob := ⟨.thumbnail, PrivateKey.agree sender receiver, thumbnailNonce⟩
  have left : (ofCalls calls).made[2]? = some ⟨.image 0, blob⟩ := rfl
  have right : (ofCalls calls).made[3]? = some ⟨.image 1, blob⟩ := rfl
  refine ⟨⟨List.nodup_nil, fun _ _ => List.not_mem_nil, by decide, ?_⟩,
    _, List.mem_of_getElem? left, _, List.mem_of_getElem? right, by decide, rfl, rfl⟩
  intro image mem
  rcases List.mem_cons.1 mem with rfl | mem
  · decide
  · rw [List.mem_singleton.1 mem]
    decide

end BlobRun

end SealedEnvelope
