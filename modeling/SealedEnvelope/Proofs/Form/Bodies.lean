import SealedEnvelope.Proofs.Form.ReadBack

/-!
# Bodies of forms (SPEC_FULL §4.6, §10.4)

What the body of a list of pairs is made of, and what is found in it: every pair is two written texts
around one `=`, between two pairs stands one `&`, and of the values of a key the last one is read.
A text can be written in two passes, which do not get into each other's way: first every byte that
is not plain is escaped, a space too, and then a plus sign is put for every escaped space.
-/

set_option autoImplicit false

namespace SealedEnvelope

namespace Form

/-! ## Writing in two passes -/

/-- How a byte is written when a space has no mark of its own. -/
def escapeByte (byte : UInt8) : List Char :=
  if isPlain byte then [Char.ofNat byte.toNat]
  else ['%', escapeDigit (byte.toNat / 16), escapeDigit (byte.toNat % 16)]

/-- The text with a plus sign for every `%20` in it. -/
def plusForSpace : List Char → List Char
  | '%' :: '2' :: '0' :: rest => '+' :: plusForSpace rest
  | c :: rest => c :: plusForSpace rest
  | [] => []

theorem plusForSpace_cons_of_ne {c : Char} (h : c ≠ '%') (rest : List Char) :
    plusForSpace (c :: rest) = c :: plusForSpace rest := by
  rw [plusForSpace]
  rintro rest' rfl
  contradiction

/-- The digits of an escape are none of its mark, and those of a space are the escape of no other
byte. -/
theorem escapeDigit_pair : ∀ n < 256, escapeDigit (n / 16) ≠ '%' ∧ escapeDigit (n % 16) ≠ '%'
    ∧ (escapeDigit (n / 16) = '2' → escapeDigit (n % 16) = '0' → n = 0x20) := by
  decide +kernel

/-- An escape that is not that of a space is left as it is. -/
theorem plusForSpace_escape {byte : UInt8} (space : byte ≠ 0x20) (rest : List Char) :
    plusForSpace
        ('%' :: escapeDigit (byte.toNat / 16) :: escapeDigit (byte.toNat % 16) :: rest)
      = '%' :: escapeDigit (byte.toNat / 16) :: escapeDigit (byte.toNat % 16)
        :: plusForSpace rest := by
  obtain ⟨high, low, onlySpace⟩ := escapeDigit_pair byte.toNat byte.toNat_lt
  rw [plusForSpace, plusForSpace_cons_of_ne high, plusForSpace_cons_of_ne low]
  rintro rest' - same
  simp only [List.cons.injEq] at same
  exact space (UInt8.toNat_inj.1 (onlySpace same.1 same.2.1))

/-- The second pass turns what the first one makes of a byte into how the byte is written, whatever
follows. -/
theorem plusForSpace_escapeByte (byte : UInt8) (rest : List Char) :
    plusForSpace (escapeByte byte ++ rest) = encodeByte byte ++ plusForSpace rest := by
  by_cases plain : isPlain byte = true
  · obtain ⟨value, _, percent, _⟩ := isPlain_spec plain
    have noMark : Char.ofNat byte.toNat ≠ '%' := by
      intro same
      apply percent
      rw [← value, same]
      rfl
    rw [escapeByte, if_pos plain, encodeByte_of_plain plain]
    exact plusForSpace_cons_of_ne noMark rest
  rw [escapeByte, if_neg plain]
  by_cases space : byte = 0x20
  · subst space
    rfl
  · rw [encodeByte_of_escape plain space]
    exact plusForSpace_escape space rest

theorem plusForSpace_flatMap_escapeByte (bytes : Bytes) :
    plusForSpace (bytes.flatMap escapeByte) = bytes.flatMap encodeByte := by
  induction bytes with
  | nil => rfl
  | cons byte bytes ih =>
    rw [List.flatMap_cons, List.flatMap_cons, plusForSpace_escapeByte, ih]

/-- A key or a value is written in two passes. -/
def encodeInPasses (text : String) : List Char :=
  plusForSpace ((Utf8.encode text).flatMap escapeByte)

theorem encodeInPasses_eq (text : String) : encodeInPasses text = encode text :=
  plusForSpace_flatMap_escapeByte (Utf8.encode text)

/-! ## Characters -/

/-- Whether a character stands in a written text: it stands for itself, or it is the mark of a space
or of an escape. -/
def isTextChar (c : Char) : Bool := c.isAlphanum || c ∈ ['.', '-', '*', '_', '+', '%']

/-- Whether a character stands in a body: in a text, or as one of the separators. -/
def isBodyChar (c : Char) : Bool := isTextChar c || c ∈ ['&', '=']

theorem all_isTextChar_encodeByte :
    ∀ n < 256, (encodeByte (UInt8.ofNat n)).all isTextChar = true := by
  decide +kernel

theorem isTextChar_of_mem_encode {text : String} {c : Char} (h : c ∈ encode text) :
    isTextChar c = true := by
  obtain ⟨byte, _, mem⟩ := List.mem_flatMap.1 h
  rw [← UInt8.ofNat_toNat (x := byte)] at mem
  exact List.all_eq_true.1 (all_isTextChar_encodeByte byte.toNat byte.toNat_lt) c mem

theorem isBodyChar_of_mem_segment {pair : String × String} {c : Char} (h : c ∈ segment pair) :
    isBodyChar c = true := by
  rcases List.mem_append.1 h with inKey | inValue
  · rw [isBodyChar, isTextChar_of_mem_encode inKey, Bool.true_or]
  · rcases List.mem_cons.1 inValue with rfl | inValue
    · decide
    · rw [isBodyChar, isTextChar_of_mem_encode inValue, Bool.true_or]

/-- A pair has one `=`. -/
theorem count_equals_segment (pair : String × String) : (segment pair).count '=' = 1 := by
  have key : (encode pair.1).count '=' = 0 := List.count_eq_zero.2 (equals_not_mem_encode pair.1)
  have value : (encode pair.2).count '=' = 0 :=
    List.count_eq_zero.2 (equals_not_mem_encode pair.2)
  rw [segment, List.count_append, List.count_cons_self, key, value]

/-! ## Bodies -/

theorem isBodyChar_of_mem_text {pairs : List (String × String)} {c : Char}
    (h : c ∈ (FormBody.ofPairs pairs).text.toList) : isBodyChar c = true := by
  rw [FormBody.text, String.toList_ofList, FormBody.chars_ofPairs] at h
  rcases Text.eq_or_exists_of_mem_join h with rfl | ⟨part, mem, inPart⟩
  · decide
  · obtain ⟨pair, _, rfl⟩ := List.mem_map.1 mem
    exact isBodyChar_of_mem_segment inPart

/-- The body of a list of pairs is the pairs with one `&` between each two, a pair is its two texts
in two passes around one `=`, and no other character stands in a body than those that stand for
themselves and the marks.  It is decoded to the map that has at each key the value of the last pair
with that key, and no other entries. -/
theorem decode_ofPairs (pairs : List (String × String)) :
    let body := (FormBody.ofPairs pairs).text
    ((decode body).entries.map Prod.fst).Nodup
      ∧ (∀ key value, (key, value) ∈ (decode body).entries
        ↔ ∃ before after, pairs = before ++ (key, value) :: after ∧ key ∉ after.map Prod.fst)
      ∧ (∀ key value, (decode body).get? key = some value
        ↔ ∃ before after, pairs = before ++ (key, value) :: after ∧ key ∉ after.map Prod.fst)
      ∧ (∀ c ∈ body.toList, isBodyChar c = true)
      ∧ body.toList = Text.join '&' (pairs.map segment)
      ∧ ∀ pair, segment pair = encodeInPasses pair.1 ++ '=' :: encodeInPasses pair.2
        ∧ (segment pair).count '=' = 1 ∧ (segment pair).count '&' = 0 := by
  intro body
  have decoded : decode body = Table.ofList pairs := decode_text pairs
  have chars : body.toList = Text.join '&' (pairs.map segment) := by
    rw [← FormBody.chars_ofPairs]
    exact String.toList_ofList
  rw [decoded]
  refine ⟨Table.nodup_ofList pairs, fun key value => ?_, fun key value => ?_,
    fun c => isBodyChar_of_mem_text, chars, fun pair => ⟨?_, ?_, ?_⟩⟩
  · rw [Table.mem_entries_ofList, Table.get?_ofList_eq_some]
  · exact Table.get?_ofList_eq_some
  · rw [encodeInPasses_eq, encodeInPasses_eq, segment]
  · exact count_equals_segment pair
  · exact List.count_eq_zero.2 (ampersand_not_mem_segment pair)

/-- A key that comes twice, a pair of empty texts, and a value that looks like an escape. -/
theorem decode_ofPairs_twice :
    let pairs := [("a b", "+"), ("", ""), ("%20", "ü\x00&="), ("a b", "%20")]
    let body := (FormBody.ofPairs pairs).text
    body = "a+b=%2B&=&%2520=%C3%BC%00%26%3D&a+b=%2520"
      ∧ (decode body).get? "a b" = some "%20"
      ∧ '&' ∈ body.toList ∧ isBodyChar '&' = true := by
  intro pairs body
  obtain ⟨_, _, found, made, _⟩ := decode_ofPairs pairs
  have last : ∃ before after, pairs = before ++ ("a b", "%20") :: after
      ∧ "a b" ∉ after.map Prod.fst :=
    ⟨[("a b", "+"), ("", ""), ("%20", "ü\x00&=")], [], rfl, List.not_mem_nil⟩
  have mark : '&' ∈ body.toList := by decide +kernel
  exact ⟨by decide +kernel, (found "a b" "%20").2 last, mark, made '&' mark⟩

end Form

end SealedEnvelope
