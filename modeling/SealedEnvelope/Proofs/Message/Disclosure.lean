import SealedEnvelope.Proofs.Envelope.Authenticity

/-!
# What the refusal of a location discloses (SPEC_FULL §7)

A location is refused for the number of its coordinates, for the first of them that is no finite
number, or for the number of its lines.  The first and the last of these refusals tell a count; the
second one tells the coordinate itself.  So two locations of one shape are refused in the same way
as far as their first bad coordinates are the same text, and not otherwise.
-/

set_option autoImplicit false

namespace SealedEnvelope

open Outcome (error? error?_bind findSome?_cons_eq_or)

/-! ## Bodies of one shape -/

/-- Two bodies of one length with their commas and their line breaks at the same places. -/
structure SameShape (left right : Bytes) : Prop where
  length : left.length = right.length
  commas : ∀ place : Nat, left[place]? = some 0x2C ↔ right[place]? = some 0x2C
  lineBreaks : ∀ place : Nat, left[place]? = some 0x0A ↔ right[place]? = some 0x0A

namespace SameShape

theorem cons_iff {a b : UInt8} {left right : Bytes} :
    SameShape (a :: left) (b :: right)
      ↔ (a = 0x2C ↔ b = 0x2C) ∧ (a = 0x0A ↔ b = 0x0A) ∧ SameShape left right := by
  constructor
  · rintro ⟨length, commas, lineBreaks⟩
    have comma := commas 0
    have lineBreak := lineBreaks 0
    simp only [List.getElem?_cons_zero, Option.some.injEq] at comma lineBreak
    exact ⟨comma, lineBreak, Nat.succ.inj length, fun place => commas (place + 1),
      fun place => lineBreaks (place + 1)⟩
  · rintro ⟨comma, lineBreak, length, commas, lineBreaks⟩
    refine ⟨congrArg Nat.succ length, fun place => ?_, fun place => ?_⟩
    · cases place with
      | zero => simpa using comma
      | succ place => exact commas place
    · cases place with
      | zero => simpa using lineBreak
      | succ place => exact lineBreaks place

/-- As many bytes are a mark on either side, if they are at the same places. -/
theorem count_eq {mark : UInt8} {left right : Bytes} (length : left.length = right.length)
    (places : ∀ place : Nat, left[place]? = some mark ↔ right[place]? = some mark) :
    left.count mark = right.count mark := by
  induction left generalizing right with
  | nil =>
    obtain rfl := List.eq_nil_of_length_eq_zero length.symm
    rfl
  | cons a left ih =>
    match right, length with
    | b :: right, length =>
      have first : a = mark ↔ b = mark := by simpa using places 0
      have others := ih (Nat.succ.inj length) fun place => places (place + 1)
      by_cases isMark : a = mark
      · rw [isMark, first.1 isMark, List.count_cons_self, List.count_cons_self, others]
      · rw [List.count_cons_of_ne isMark, List.count_cons_of_ne (mt first.2 isMark), others]

/-- The first lines are of one shape too. -/
theorem firstLine {left right : Bytes} (shape : SameShape left right) :
    SameShape (left.takeWhile (· ≠ 0x0A)) (right.takeWhile (· ≠ 0x0A)) := by
  induction left generalizing right with
  | nil =>
    obtain rfl := List.eq_nil_of_length_eq_zero shape.length.symm
    exact shape
  | cons a left ih =>
    match right, shape.length with
    | b :: right, _ =>
      obtain ⟨comma, lineBreak, rest⟩ := cons_iff.1 shape
      by_cases ends : a = 0x0A
      · rw [ends, lineBreak.1 ends, List.takeWhile_cons_of_neg (by decide),
          List.takeWhile_cons_of_neg (by decide)]
        exact ⟨rfl, fun _ => Iff.rfl, fun _ => Iff.rfl⟩
      · rw [List.takeWhile_cons_of_pos (by simpa using ends),
          List.takeWhile_cons_of_pos (by simpa using mt lineBreak.2 ends)]
        exact cons_iff.2 ⟨comma, lineBreak, ih rest⟩

/-- Past the end of two bodies of one length there is no mark in either. -/
theorem iff_of_lt {left right : Bytes} :
    SameShape left right ↔ left.length = right.length ∧ ∀ place < left.length,
      (left[place]? = some 0x2C ↔ right[place]? = some 0x2C)
        ∧ (left[place]? = some 0x0A ↔ right[place]? = some 0x0A) := by
  constructor
  · rintro ⟨length, commas, lineBreaks⟩
    exact ⟨length, fun place _ => ⟨commas place, lineBreaks place⟩⟩
  · rintro ⟨length, inside⟩
    have all : ∀ place : Nat, (left[place]? = some 0x2C ↔ right[place]? = some 0x2C)
        ∧ (left[place]? = some 0x0A ↔ right[place]? = some 0x0A) := by
      intro place
      rcases Nat.lt_or_ge place left.length with lt | ge
      · exact inside place lt
      · rw [List.getElem?_eq_none ge, List.getElem?_eq_none (length ▸ ge)]
        exact ⟨Iff.rfl, Iff.rfl⟩
    exact ⟨length, fun place => (all place).1, fun place => (all place).2⟩

instance (left right : Bytes) : Decidable (SameShape left right) := decidable_of_iff' _ iff_of_lt

end SameShape

/-- An error without the text of a number that it quotes. -/
def Error.withoutText : Error → Error
  | .malformed context (.notNumber _) => .malformed context (.notNumber "")
  | error => error

/-! ## The refusals of a location -/

namespace Location

/-- Whether a text stands for a finite number. -/
def isNumber (text : List Char) : Bool := (Decimal.binary64? text).any Binary64.isFinite

/-- The texts of the numbers of a location. -/
def coordinateTexts (text : List Char) : List (List Char) :=
  Text.split ',' (text.takeWhile (· ≠ '\n'))

/-- The place of the first coordinate that is no finite number. -/
def badPlace? (text : List Char) : Option Nat :=
  (coordinateTexts text).findIdx? fun part => !isNumber part

/-- The first coordinate that is no finite number. -/
def badCoordinate? (text : List Char) : Option (List Char) :=
  (coordinateTexts text).find? fun part => !isNumber part

/-- Whether the numbers of a location are read at all. -/
def ReadsNumbers (text : List Char) : Prop :=
  (coordinateTexts text).length = 2 ∨ (coordinateTexts text).length = 3

instance (text : List Char) : Decidable (ReadsNumbers text) :=
  inferInstanceAs (Decidable (_ ∨ _))

/-- The refusal of a coordinate, which tells it. -/
def notNumber (text : List Char) : Error :=
  .malformed .locationMessage (.notNumber (String.ofList text))

theorem error?_parseNumber (text : List Char) :
    error? (parseNumber text) = (Option.guard (fun part => !isNumber part) text).map notNumber := by
  unfold parseNumber isNumber
  cases number : Decimal.binary64? text with
  | none => simp [Option.guard, error?, notNumber, number]
  | some number' =>
    by_cases finite : number'.isFinite = true
    · simp [Option.guard, error?, number, finite]
    · simp [Option.guard, error?, notNumber, number, finite]

/-- Numbers in turn are refused for the first bad one. -/
theorem findSome?_error?_parseNumber (parts : List (List Char)) :
    parts.findSome? (fun part => error? (parseNumber part))
      = (parts.find? fun part => !isNumber part).map notNumber := by
  rw [List.find?_eq_findSome?_guard, List.map_findSome?]
  exact congrArg (List.findSome? · _) (funext error?_parseNumber)

/-- The first line is refused for the number of its parts, or for the first bad one. -/
theorem error?_parseCoordinates (parts : List (List Char)) :
    error? (parseCoordinates parts)
      = if parts.length = 2 ∨ parts.length = 3 then
          (parts.find? fun part => !isNumber part).map notNumber
        else some (.malformed .locationMessage (.coordinateCount parts.length)) := by
  rw [← findSome?_error?_parseNumber]
  match parts with
  | [] => rfl
  | [_] => rfl
  | [latitude, longitude] =>
    simp only [findSome?_cons_eq_or, List.findSome?_nil]
    iterate 2 refine error?_bind fun _ _ => ?_
    rfl
  | [latitude, longitude, accuracy] =>
    simp only [findSome?_cons_eq_or, List.findSome?_nil]
    iterate 3 refine error?_bind fun _ _ => ?_
    rfl
  | _ :: _ :: _ :: _ :: rest =>
    rw [if_neg (by simp only [List.length_cons]; omega)]
    rfl

/-- Lines after the first one are refused for their number alone. -/
theorem error?_withLines (location : Location) (lines : List (List Char)) :
    error? (location.withLines lines)
      = if lines.length ≤ 2 then none
        else some (.malformed .locationMessage (.lineCount (lines.length + 1))) := by
  match lines with
  | [] => rfl
  | [_] => rfl
  | [_, _] => rfl
  | _ :: _ :: _ :: rest =>
    rw [if_neg (by simp only [List.length_cons]; omega)]
    rfl

/-- Why the text of a location is refused, if it is. -/
def refusal? (text : List Char) : Option Error :=
  if ReadsNumbers text then
    ((badCoordinate? text).map notNumber).or
      (if text.count '\n' ≤ 2 then none
        else some (.malformed .locationMessage (.lineCount (text.count '\n' + 1))))
  else some (.malformed .locationMessage (.coordinateCount (coordinateTexts text).length))

theorem error?_decode (text : List Char) :
    error? (decode (Utf8.encodeChars text)) = refusal? text := by
  obtain ⟨others, cut⟩ := List.head?_eq_some_iff.1 (Text.head?_split '\n' text)
  have count : others.length = text.count '\n' := by
    have parts := Text.length_split '\n' text
    rw [cut] at parts
    exact Nat.succ.inj parts
  have inTurn : error? (parseCoordinates (coordinateTexts text) >>= (withLines · others)) = _ :=
    error?_bind fun location _ => location.error?_withLines others
  unfold decode
  rw [Utf8.decodeChars_encodeChars]
  simp only [cut]
  refine inTurn.trans ?_
  rw [error?_parseCoordinates, count]
  rw [refusal?, badCoordinate?]
  by_cases reads : ReadsNumbers text
  · have counted : (coordinateTexts text).length = 2 ∨ (coordinateTexts text).length = 3 := reads
    rw [if_pos reads, if_pos counted]
  · have other : ¬ ((coordinateTexts text).length = 2 ∨ (coordinateTexts text).length = 3) := reads
    rw [if_neg reads, if_neg other]
    rfl

theorem withoutText_notNumber (text : List Char) :
    (notNumber text).withoutText = .malformed .locationMessage (.notNumber "") := rfl

theorem notNumber_inj {text text' : List Char} :
    notNumber text = notNumber text' ↔ text = text' := by
  simp only [notNumber, Error.malformed.injEq, Reason.notNumber.injEq, String.ofList_inj, true_and]

theorem refusal?_of_badCoordinate? {text part : List Char} (reads : ReadsNumbers text)
    (bad : badCoordinate? text = some part) : refusal? text = some (notNumber part) := by
  rw [refusal?, if_pos reads, bad]
  rfl

/-- A coordinate is bad at some place exactly if one is bad. -/
theorem isSome_badCoordinate? (text : List Char) :
    (badCoordinate? text).isSome = (badPlace? text).isSome := by
  rw [badCoordinate?, badPlace?, List.findIdx?_isSome, List.isSome_find?]

/-- Coordinates are bad on both sides or on neither of them. -/
theorem badCoordinate?_cases_of_place {left right : List Char}
    (place : badPlace? left = badPlace? right) :
    (badCoordinate? left = none ∧ badCoordinate? right = none)
      ∨ ∃ part part', badCoordinate? left = some part ∧ badCoordinate? right = some part' := by
  have bad : (badCoordinate? left).isSome = (badCoordinate? right).isSome := by
    rw [isSome_badCoordinate?, isSome_badCoordinate?, place]
  cases badLeft : badCoordinate? left with
  | none =>
    rw [badLeft] at bad
    exact .inl ⟨rfl, Option.not_isSome_iff_eq_none.1 (ne_true_of_eq_false bad.symm)⟩
  | some part =>
    rw [badLeft] at bad
    obtain ⟨part', badRight⟩ := Option.isSome_iff_exists.1 bad.symm
    exact .inr ⟨part, part', rfl, badRight⟩

/-! ## Two locations of one shape -/

section Shape

variable {left right : List Char}
  (shape : SameShape (Utf8.encodeChars left) (Utf8.encodeChars right))
include shape

theorem lineBreaks_eq_of_shape : left.count '\n' = right.count '\n' := by
  have ascii : '\n'.toNat < 0x80 := by decide
  rw [← Utf8.count_encodeChars ascii left, ← Utf8.count_encodeChars ascii right]
  exact SameShape.count_eq shape.length shape.lineBreaks

theorem length_coordinateTexts_of_shape :
    (coordinateTexts left).length = (coordinateTexts right).length := by
  have lineBreak : Char.toNat '\n' < 0x80 := by decide
  have comma : Char.toNat ',' < 0x80 := by decide
  have first := shape.firstLine
  have commas := SameShape.count_eq first.length first.commas
  rw [coordinateTexts, coordinateTexts, Text.length_split, Text.length_split,
    ← Utf8.count_encodeChars comma, ← Utf8.count_encodeChars comma,
    ← Utf8.takeWhile_encodeChars lineBreak, ← Utf8.takeWhile_encodeChars lineBreak]
  exact congrArg Nat.succ commas

theorem readsNumbers_iff_of_shape : ReadsNumbers left ↔ ReadsNumbers right := by
  rw [ReadsNumbers, ReadsNumbers, length_coordinateTexts_of_shape shape]

variable (place : badPlace? left = badPlace? right)
include place

/-- The two locations are refused alike, or each for a coordinate of its own. -/
theorem refusal?_cases_of_shape :
    (refusal? left = refusal? right
        ∧ (¬ ReadsNumbers left ∨ badCoordinate? left = badCoordinate? right))
      ∨ ∃ part part', ReadsNumbers left
        ∧ badCoordinate? left = some part ∧ badCoordinate? right = some part'
        ∧ refusal? left = some (notNumber part) ∧ refusal? right = some (notNumber part') := by
  have reads := readsNumbers_iff_of_shape shape
  by_cases isRead : ReadsNumbers left
  · rcases badCoordinate?_cases_of_place place with
      ⟨badLeft, badRight⟩ | ⟨part, part', badLeft, badRight⟩
    · refine .inl ⟨?_, .inr (badLeft.trans badRight.symm)⟩
      rw [refusal?, refusal?, if_pos isRead, if_pos (reads.1 isRead), badLeft, badRight,
        lineBreaks_eq_of_shape shape]
    · exact .inr ⟨part, part', isRead, badLeft, badRight, refusal?_of_badCoordinate? isRead badLeft,
        refusal?_of_badCoordinate? (reads.1 isRead) badRight⟩
  · refine .inl ⟨?_, .inl isRead⟩
    rw [refusal?, refusal?, if_neg isRead, if_neg (mt reads.2 isRead),
      length_coordinateTexts_of_shape shape]

/-- All that the refusals can differ in is the text that they quote. -/
theorem withoutText_refusal?_of_shape :
    (refusal? left).map Error.withoutText = (refusal? right).map Error.withoutText := by
  rcases refusal?_cases_of_shape shape place with
    ⟨same, _⟩ | ⟨part, part', _, _, _, refused, refused'⟩
  · rw [same]
  · rw [refused, refused']
    exact congrArg some ((withoutText_notNumber part).trans (withoutText_notNumber part').symm)

/-- The refusals are the same unless they quote different texts. -/
theorem refusal?_eq_iff_of_shape :
    refusal? left = refusal? right
      ↔ ¬ ReadsNumbers left ∨ badCoordinate? left = badCoordinate? right := by
  rcases refusal?_cases_of_shape shape place with
    ⟨same, why⟩ | ⟨part, part', isRead, badLeft, badRight, refused, refused'⟩
  · exact iff_of_true same why
  · rw [refused, refused', badLeft, badRight, Option.some_inj, Option.some_inj, notNumber_inj,
      or_iff_right (not_not_intro isRead)]

end Shape

end Location

/-! ## Messages and envelopes -/

/-- A location is refused as a message for what its text is refused for. -/
theorem Message.error?_decode_location (text : List Char) :
    error? (decode (MessageType.location.tag :: Utf8.encodeChars text))
      = Location.refusal? text := by
  rw [← Location.error?_decode]
  exact Outcome.error?_map _ Message.location

/-- Of two locations of one shape whose first bad coordinates are at one place, the refusals are
the same but for the text of a coordinate, and they do tell that text: they are the same exactly if
the coordinates are not read at all or if the bad ones are the same text.  An open envelope is
refused with the same error as the message that it holds. -/
theorem Message.refusals_of_shape {left right : List Char}
    (shape : SameShape (Utf8.encodeChars left) (Utf8.encodeChars right))
    (place : Location.badPlace? left = Location.badPlace? right) :
    let refusal (text : List Char) : Option Error :=
      error? (decode (MessageType.location.tag :: Utf8.encodeChars text))
    (refusal left).map Error.withoutText = (refusal right).map Error.withoutText
      ∧ (refusal left = refusal right
        ↔ ¬ Location.ReadsNumbers left
          ∨ Location.badCoordinate? left = Location.badCoordinate? right)
      ∧ (∀ text part : List Char, Location.ReadsNumbers text →
        Location.badCoordinate? text = some part →
        refusal text = some (.malformed .locationMessage (.notNumber (String.ofList part))))
      ∧ ∀ (text : List Char) (envelope : Envelope) (sender : PublicKey) (receiver : PrivateKey)
          (padded : Bytes),
        PublicBox.decrypt receiver sender envelope.nonce envelope.box = .ok padded →
        Padding.unpad padded = .ok (MessageType.location.tag :: Utf8.encodeChars text) →
        error? (envelope.decrypt sender receiver) = refusal text := by
  intro refusal
  have refused : ∀ text, refusal text = Location.refusal? text := error?_decode_location
  refine ⟨?_, ?_, ?_, ?_⟩
  · rw [refused, refused]
    exact Location.withoutText_refusal?_of_shape shape place
  · rw [refused, refused]
    exact Location.refusal?_eq_iff_of_shape shape place
  · intro text part reads bad
    rw [refused]
    exact Location.refusal?_of_badCoordinate? reads bad
  · intro text envelope sender receiver padded opened unpadded
    have authentic : envelope.Seals (PrivateKey.agree receiver sender) padded :=
      SecretBox.decrypt_eq_ok.1 opened
    rw [authentic.decrypt_eq, unpadded]
    rfl

/-- Two locations of one shape have a word for the accuracy: an envelope that holds the one is
refused with its word, and the other as a message with its own. -/
theorem Message.refusals_of_shape_accuracy :
    let low := "1,2,low\nHome".toList
    let far := "3,4,far\nWork".toList
    let sender : PublicKey := ⟨List.replicate 32 1, rfl⟩
    let receiver : PrivateKey := ⟨List.replicate 32 2, rfl⟩
    let nonce : Nonce := ⟨Bytes.zeros 24, rfl⟩
    let padded := Padding.append (MessageType.location.tag :: Utf8.encodeChars low) 100
    let box := SecretBox.encrypt (PrivateKey.agree receiver sender) nonce padded
    let quoting (text : List Char) : Option Error :=
      some (.malformed .locationMessage (.notNumber (String.ofList text)))
    ∃ small,
      error? ((⟨box, nonce, small⟩ : Envelope).decrypt sender receiver) = quoting "low".toList
        ∧ error? (decode (MessageType.location.tag :: Utf8.encodeChars far))
          = quoting "far".toList := by
  intro low far sender receiver nonce padded box quoting
  have small : box.length ≤ maxContentLength := by
    rw [SecretBox.length_encrypt]
    decide
  obtain ⟨_, _, quoted, inEnvelope⟩ :=
    refusals_of_shape (by decide : SameShape (Utf8.encodeChars low) (Utf8.encodeChars far))
      (by decide +kernel)
  have opened := inEnvelope low ⟨box, nonce, small⟩ sender receiver padded
    (SecretBox.decrypt_encrypt _ _ _) (Padding.unpad_append _ (by decide) (by decide))
  exact ⟨small, opened.trans (quoted low _ (by decide +kernel) (by decide +kernel)),
    quoted far _ (by decide +kernel) (by decide +kernel)⟩

/-- Two bodies of one shape that are refused for the same coordinate, but not with the same error:
each refusal quotes the characters of its own message. -/
theorem Location.refusals_of_two_words :
    let bytes := Utf8.encodeChars "abc,1".toList
    let bytes' := Utf8.encodeChars "xyz,1".toList
    SameShape bytes bytes' ∧ badPlace? "abc,1".toList = badPlace? "xyz,1".toList
      ∧ ((error? (Message.decode (MessageType.location.tag :: bytes))).map Error.message
        = some "Invalid location message: invalid number \"abc\"")
      ∧ ((error? (Message.decode (MessageType.location.tag :: bytes'))).map Error.message
        = some "Invalid location message: invalid number \"xyz\"") := by
  exact ⟨by decide, by decide +kernel, by decide +kernel, by decide +kernel⟩

end SealedEnvelope
