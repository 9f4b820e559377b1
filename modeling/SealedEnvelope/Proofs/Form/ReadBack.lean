import SealedEnvelope.Form
import SealedEnvelope.Text.Utf8.Lemmas

/-!
# Form bodies read back (SPEC_FULL §4.6, §10.4)

The pairs of a body are read back from its text.  An encoding is free of `&` and `=`, so the text is
cut where pairs and their halves meet; and a literal `+` is escaped, so spaces can be restored
before the escapes are resolved.
-/

set_option autoImplicit false

namespace SealedEnvelope

namespace Form

/-! ## Single bytes -/

/-- A digit of an escape is a character of one byte, is read as the number it stands for, and is
none of the marks. -/
theorem escapeDigit_spec : ∀ n < 16, (escapeDigit n).toNat < 0x80
    ∧ Hex.value? (UInt8.ofNat (escapeDigit n).toNat) = some n
    ∧ escapeDigit n ≠ '+' ∧ escapeDigit n ≠ '&' ∧ escapeDigit n ≠ '=' := by
  decide

/-- A plain byte is a character of its own, and none of the marks. -/
theorem isPlain_spec {byte : UInt8} (plain : isPlain byte = true) :
    (Char.ofNat byte.toNat).toNat = byte.toNat ∧ byte.toNat < 0x80 ∧ byte.toNat ≠ 0x25
      ∧ byte.toNat ≠ 0x26 ∧ byte.toNat ≠ 0x2B ∧ byte.toNat ≠ 0x3D := by
  have valid : (Char.ofNat byte.toNat).toNat = byte.toNat :=
    Utf8.toNat_ofNat_char (Or.inl (by have := byte.toNat_lt; omega))
  refine ⟨valid, ?_⟩
  simp only [isPlain, UInt8.le_iff_toNat_le, ← UInt8.toNat_inj, Bool.or_eq_true, Bool.and_eq_true,
    decide_eq_true_eq, UInt8.toNat_ofNat] at plain
  omega

/-- The mark of a space stands for one. -/
def restoreSpace (c : Char) : Char := if c = '+' then ' ' else c

theorem unescape_cons_of_ne {byte : UInt8} (h : byte ≠ 0x25) (rest : Bytes) :
    unescape (byte :: rest) = byte :: unescape rest := by
  rw [unescape.eq_def]
  exact if_neg h

/-- An escape is resolved, whatever follows it. -/
theorem unescape_escape {high low : Char} {h l : Nat}
    (highValue : Hex.value? (UInt8.ofNat high.toNat) = some h)
    (lowValue : Hex.value? (UInt8.ofNat low.toNat) = some l) (rest : Bytes) :
    unescape (0x25 :: UInt8.ofNat high.toNat :: UInt8.ofNat low.toNat :: rest)
      = UInt8.ofNat (16 * h + l) :: unescape rest := by
  rw [unescape, if_pos rfl]
  simp only [highValue, lowValue]

theorem encodeByte_of_plain {byte : UInt8} (plain : isPlain byte = true) :
    encodeByte byte = [Char.ofNat byte.toNat] :=
  if_pos plain

theorem encodeByte_of_escape {byte : UInt8} (plain : ¬ isPlain byte = true)
    (space : byte ≠ 0x20) :
    encodeByte byte = ['%', escapeDigit (byte.toNat / 16), escapeDigit (byte.toNat % 16)] := by
  rw [encodeByte, if_neg plain, if_neg space]

/-- A plain byte is left as it is. -/
theorem unescape_encodeByte_of_plain {byte : UInt8} (plain : isPlain byte = true) (rest : Bytes) :
    unescape (Utf8.encodeChars ((encodeByte byte).map restoreSpace) ++ rest)
      = byte :: unescape rest := by
  obtain ⟨value, ascii, percent, _, plus, _⟩ := isPlain_spec plain
  have kept : restoreSpace (Char.ofNat byte.toNat) = Char.ofNat byte.toNat := by
    refine if_neg fun same => plus ?_
    rw [← value, same]
    rfl
  have written : Utf8.encodeChar (Char.ofNat byte.toNat) = [byte] := by
    rw [Utf8.encodeChar_of_ascii (by omega), value, UInt8.ofNat_toNat]
  rw [encodeByte_of_plain plain, List.map_singleton, kept, Utf8.encodeChars_cons, written]
  refine unescape_cons_of_ne (fun same => percent ?_) rest
  rw [same]
  rfl

/-- A byte that is neither plain nor a space is what the two digits of its escape stand for. -/
theorem unescape_encodeByte_of_escape {byte : UInt8} (plain : ¬ isPlain byte = true)
    (space : byte ≠ 0x20) (rest : Bytes) :
    unescape (Utf8.encodeChars ((encodeByte byte).map restoreSpace) ++ rest)
      = byte :: unescape rest := by
  have lt := byte.toNat_lt
  obtain ⟨highAscii, highValue, highPlus, _⟩ := escapeDigit_spec (byte.toNat / 16) (by omega)
  obtain ⟨lowAscii, lowValue, lowPlus, _⟩ := escapeDigit_spec (byte.toNat % 16) (by omega)
  have high : restoreSpace (escapeDigit (byte.toNat / 16)) = escapeDigit (byte.toNat / 16) :=
    if_neg highPlus
  have low : restoreSpace (escapeDigit (byte.toNat % 16)) = escapeDigit (byte.toNat % 16) :=
    if_neg lowPlus
  have percent : Utf8.encodeChar (restoreSpace '%') = [0x25] := by decide
  have whole : 16 * (byte.toNat / 16) + byte.toNat % 16 = byte.toNat := by omega
  rw [encodeByte_of_escape plain space, List.map_cons, List.map_cons, List.map_singleton, high, low,
    Utf8.encodeChars_cons, Utf8.encodeChars_cons, Utf8.encodeChars_cons, percent,
    Utf8.encodeChar_of_ascii highAscii, Utf8.encodeChar_of_ascii lowAscii]
  refine (unescape_escape highValue lowValue rest).trans ?_
  rw [whole, UInt8.ofNat_toNat]

/-- A byte is read back from what it is written as, whatever follows it. -/
theorem unescape_encodeByte (byte : UInt8) (rest : Bytes) :
    unescape (Utf8.encodeChars ((encodeByte byte).map restoreSpace) ++ rest)
      = byte :: unescape rest := by
  by_cases plain : isPlain byte = true
  · exact unescape_encodeByte_of_plain plain rest
  by_cases space : byte = 0x20
  · subst space
    exact unescape_cons_of_ne (by decide) rest
  · exact unescape_encodeByte_of_escape plain space rest

/-- No mark that separates stands in what a byte is written as. -/
theorem encodeByte_separators (byte : UInt8) : '&' ∉ encodeByte byte ∧ '=' ∉ encodeByte byte := by
  have lt := byte.toNat_lt
  by_cases plain : isPlain byte = true
  · obtain ⟨value, _, _, ampersand, _, equals⟩ := isPlain_spec plain
    rw [encodeByte_of_plain plain, List.mem_singleton, List.mem_singleton]
    refine ⟨fun same => ampersand ?_, fun same => equals ?_⟩
    · rw [← value, ← same]
      rfl
    · rw [← value, ← same]
      rfl
  by_cases space : byte = 0x20
  · subst space
    decide
  · obtain ⟨_, _, _, highAmpersand, highEquals⟩ := escapeDigit_spec (byte.toNat / 16) (by omega)
    obtain ⟨_, _, _, lowAmpersand, lowEquals⟩ := escapeDigit_spec (byte.toNat % 16) (by omega)
    rw [encodeByte_of_escape plain space]
    simp [highAmpersand.symm, highEquals.symm, lowAmpersand.symm, lowEquals.symm]

/-! ## Keys and values -/

theorem unescape_flatMap (bytes : Bytes) :
    unescape (Utf8.encodeChars ((bytes.flatMap encodeByte).map restoreSpace)) = bytes := by
  induction bytes with
  | nil => rfl
  | cons byte bytes ih =>
    rw [List.flatMap_cons, List.map_append, Utf8.encodeChars_append, unescape_encodeByte, ih]

/-- A key or a value is read back from what it is written as. -/
theorem decodePart_encode (text : String) : decodePart (encode text) = text := by
  have bytes := unescape_flatMap (Utf8.encode text)
  unfold restoreSpace at bytes
  unfold decodePart encode
  simp only [bytes]
  rw [Utf8.encode, Utf8.decodeLossy_encodeChars, String.ofList_toList]

theorem ampersand_not_mem_encode (text : String) : '&' ∉ encode text := by
  intro h
  obtain ⟨byte, _, mem⟩ := List.mem_flatMap.1 h
  exact (encodeByte_separators byte).1 mem

theorem equals_not_mem_encode (text : String) : '=' ∉ encode text := by
  intro h
  obtain ⟨byte, _, mem⟩ := List.mem_flatMap.1 h
  exact (encodeByte_separators byte).2 mem

/-! ## Pairs -/

/-- How a pair is written. -/
def segment (pair : String × String) : List Char := encode pair.1 ++ '=' :: encode pair.2

theorem ampersand_not_mem_segment (pair : String × String) : '&' ∉ segment pair := by
  intro h
  rcases List.mem_append.1 h with inKey | inValue
  · exact ampersand_not_mem_encode pair.1 inKey
  · rcases List.mem_cons.1 inValue with mark | inValue
    · revert mark
      decide
    · exact ampersand_not_mem_encode pair.2 inValue

theorem decodePair?_segment (pair : String × String) : decodePair? (segment pair) = some pair := by
  have halves : Text.split '=' (segment pair) = [encode pair.1, encode pair.2] := by
    rw [segment, Text.split_append, Text.split_of_not_mem (equals_not_mem_encode pair.1),
      Text.split_of_not_mem (equals_not_mem_encode pair.2)]
    rfl
  unfold decodePair?
  rw [halves]
  simp only [decodePart_encode]

end Form

/-! ## Bodies -/

namespace FormBody

/-- One more pair is one more part after a separator. -/
theorem add_join (done : List (String × String)) (pair : String × String) :
    add ⟨Text.join '&' (done.map Form.segment)⟩ pair.1 pair.2
      = ⟨Text.join '&' ((done ++ [pair]).map Form.segment)⟩ := by
  cases done with
  | nil => rfl
  | cons first rest =>
    have filled : (Text.join '&' ((first :: rest).map Form.segment)).isEmpty = false := by
      rw [List.isEmpty_eq_false_iff]
      exact Text.join_ne_nil (List.mem_map_of_mem List.mem_cons_self) (by simp [Form.segment])
    have longer : Text.join '&' ((first :: rest ++ [pair]).map Form.segment)
        = Text.join '&' ((first :: rest).map Form.segment) ++ '&' :: Form.segment pair := by
      rw [List.map_append, List.map_singleton]
      exact Text.join_append_singleton (by simp) (Form.segment pair)
    rw [longer]
    unfold add
    simp only [filled]
    simp [Form.segment]

theorem foldl_add (done pairs : List (String × String)) :
    pairs.foldl (fun (body : FormBody) pair => body.add pair.1 pair.2)
        ⟨Text.join '&' (done.map Form.segment)⟩
      = ⟨Text.join '&' ((done ++ pairs).map Form.segment)⟩ := by
  induction pairs generalizing done with
  | nil => rw [List.append_nil, List.foldl_nil]
  | cons pair pairs ih =>
    rw [List.foldl_cons, add_join, ih, List.append_assoc, List.singleton_append]

theorem chars_ofPairs (pairs : List (String × String)) :
    (ofPairs pairs).chars = Text.join '&' (pairs.map Form.segment) :=
  congrArg FormBody.chars (foldl_add [] pairs)

end FormBody

namespace Form

/-- The pairs of a body are read back in order. -/
theorem pairs_text (pairs : List (String × String)) :
    Form.pairs (FormBody.ofPairs pairs).text = pairs := by
  unfold Form.pairs FormBody.text
  rw [String.toList_ofList, FormBody.chars_ofPairs]
  cases pairs with
  | nil => rfl
  | cons pair rest =>
    have apart : ∀ part ∈ (pair :: rest).map segment, '&' ∉ part := by
      intro part mem
      obtain ⟨pair, _, rfl⟩ := List.mem_map.1 mem
      exact ampersand_not_mem_segment pair
    have each : decodePair? ∘ segment = some := funext decodePair?_segment
    rw [Text.split_join (by simp) apart, List.filterMap_map, each, List.filterMap_some]

/-- The fields of a body are the pairs it was made of. -/
theorem decode_text (pairs : List (String × String)) :
    decode (FormBody.ofPairs pairs).text = Table.ofList pairs := by
  rw [decode, pairs_text]

/-- A pair is found wherever it stands in a body, if no other one has its key. -/
theorem get?_decode_text {pairs : List (String × String)} (nodup : (pairs.map Prod.fst).Nodup)
    {key value : String} (mem : (key, value) ∈ pairs) :
    (decode (FormBody.ofPairs pairs).text).get? key = some value := by
  rw [decode_text]
  exact Table.get?_ofList_of_mem nodup mem

theorem get?_decode_text_of_not_mem {pairs : List (String × String)} {key : String}
    (h : key ∉ pairs.map Prod.fst) : (decode (FormBody.ofPairs pairs).text).get? key = none := by
  rw [decode_text]
  exact Table.get?_ofList_of_not_mem h

end Form

end SealedEnvelope
