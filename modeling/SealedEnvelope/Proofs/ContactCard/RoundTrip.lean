import SealedEnvelope.ContactCard
import SealedEnvelope.Proofs.Octets.HexText

/-!
# Contact cards read back (SPEC_FULL §10.1)

A card is read from its text again unless a comma stands in the identity, which then seems to end
there.  Every text that is read is the text of its card, but for the case of the digits of the key.
-/

set_option autoImplicit false

namespace SealedEnvelope

namespace ContactCard

theorem toList_text (card : ContactCard) :
    card.text.toList = start ++ card.identity.text.toList ++ ',' :: card.publicKey.toHex.toList := by
  rw [text, String.toList_ofList, chars]

/-- A text is read at its first comma. -/
theorem parse_of_eq {text : String} {identity key : List Char}
    (eq : text.toList = start ++ identity ++ ',' :: key) (absent : ',' ∉ identity) :
    parse text = do
      let identity ← Identity.parse (String.ofList identity)
      let publicKey ← Octets.parseHex .publicKey .publicKey (String.ofList key)
      return ⟨identity, publicKey⟩ := by
  have begun : Text.dropStart? start text.toList = some (identity ++ ',' :: key) :=
    Text.dropStart?_eq_some.2 (by rw [eq, List.append_assoc])
  have cut : Text.splitFirst? ',' (identity ++ ',' :: key) = some (identity, key) :=
    Text.splitFirst?_eq_some.2 ⟨rfl, absent⟩
  rw [parse, begun]
  simp only [cut]

/-- A text is that of a card exactly if it spells the card's identity, which has no comma, and its
key. -/
theorem parse_eq_ok {text : String} {card : ContactCard} :
    parse text = .ok card
      ↔ ∃ key, text.toList = start ++ card.identity.text.toList ++ ',' :: key
        ∧ ',' ∉ card.identity.text.toList
        ∧ Octets.parseHex .publicKey .publicKey (String.ofList key) = .ok card.publicKey := by
  constructor
  · intro h
    unfold parse at h
    split at h
    · contradiction
    · rename_i rest begun
      split at h
      · contradiction
      · rename_i identity key cut
        simp only [Outcome.bind_eq_ok, Outcome.pure_eq_ok] at h
        obtain ⟨owner, spelled, publicKey, read, rfl⟩ := h
        obtain ⟨rfl, absent⟩ := Text.splitFirst?_eq_some.1 cut
        have whole := Text.dropStart?_eq_some.1 begun
        have chars : owner.text.toList = identity := by
          rw [Identity.parse_eq_ok.1 spelled, String.toList_ofList]
        refine ⟨key, ?_, ?_, read⟩
        · rw [whole, chars, List.append_assoc]
        · rw [chars]
          exact absent
  · rintro ⟨key, whole, absent, read⟩
    have spelled : Identity.parse (String.ofList card.identity.text.toList)
        = .ok card.identity := by
      rw [String.ofList_toList]
      exact Identity.parse_eq_ok.2 rfl
    rw [parse_of_eq whole absent, spelled, read]
    rfl

/-- A card is read from its text exactly if no comma stands in the identity. -/
theorem parse_text_eq_ok {card : ContactCard} :
    parse card.text = .ok card ↔ ',' ∉ card.identity.text.toList := by
  rw [parse_eq_ok]
  constructor
  · rintro ⟨_, _, absent, _⟩
    exact absent
  · intro absent
    refine ⟨card.publicKey.toHex.toList, card.toList_text, absent, ?_⟩
    rw [String.ofList_toList]
    exact Octets.parseHex_toHex _ card.publicKey

/-- Of an identity with a comma only what stands before it is taken, which is too short. -/
theorem parse_text_of_mem {card : ContactCard} (mem : ',' ∈ card.identity.text.toList) :
    ∃ front back, card.identity.text.toList = front ++ ',' :: back ∧ ',' ∉ front
      ∧ parse card.text = .error (.illegalIdentity (String.ofList front)) := by
  obtain ⟨front, back, eq, absent⟩ := List.eq_append_cons_of_mem mem
  refine ⟨front, back, eq, absent, ?_⟩
  have length := card.identity.length_toList
  have short : (String.ofList front).toList.length ≠ 8 := by
    rw [eq, List.length_append, List.length_cons] at length
    rw [String.toList_ofList]
    omega
  have whole : card.text.toList
      = start ++ front ++ ',' :: (back ++ ',' :: card.publicKey.toHex.toList) := by
    rw [toList_text, eq]
    simp only [List.append_assoc, List.cons_append]
  rw [parse_of_eq whole absent, Identity.parse_of_length_ne short]
  rfl

/-- The text of a card that was read is the text it was read from, with the key in lower case. -/
theorem toList_text_of_parse {text : String} {card : ContactCard} (h : parse text = .ok card) :
    ∃ identity key, text.toList = start ++ identity ++ ',' :: key ∧ ',' ∉ identity
      ∧ card.text.toList = start ++ identity ++ ',' :: key.map Char.toLower := by
  obtain ⟨key, whole, absent, read⟩ := parse_eq_ok.1 h
  refine ⟨card.identity.text.toList, key, whole, absent, ?_⟩
  rw [toList_text, Octets.toHex_of_parseHex read, String.toList_ofList]

/-- A card is read from its text if no comma stands in its identity.  If one does, the text is
refused, since what stands before the first comma is taken for the identity.  Every text that the
card is read from has three parts, the start of all cards, an identity without a comma, and after a
comma the digits of a key; the text of the card differs from it at most in the case of these
digits. -/
theorem parse_text_and_text_of_parse (card : ContactCard) :
    (parse card.text = .ok card ↔ ',' ∉ card.identity.text.toList)
    ∧ (',' ∈ card.identity.text.toList →
      ∃ front back, card.identity.text.toList = front ++ ',' :: back ∧ ',' ∉ front
        ∧ parse card.text = .error (.illegalIdentity (String.ofList front)))
    ∧ ∀ text : String, parse text = .ok card →
      ∃ identity key, text.toList = start ++ identity ++ ',' :: key ∧ ',' ∉ identity
        ∧ card.text.toList = start ++ identity ++ ',' :: key.map Char.toLower :=
  ⟨parse_text_eq_ok, parse_text_of_mem, fun _ => toList_text_of_parse⟩

/-- A card with all sorts of marks in its identity is read from its text; from a text with the key in
upper case it is read as well, and written in lower case. -/
theorem parse_text_and_text_of_parse_upper_case :
    let identity : Identity := ⟨"=:%@3mid", by decide⟩
    let card : ContactCard := ⟨identity, ⟨List.replicate 32 0xAA, rfl⟩⟩
    let upper := String.ofList (start ++ identity.text.toList ++ ',' :: List.replicate 64 'A')
    parse card.text = .ok card ∧ parse upper = .ok card
      ∧ ∃ owner key, upper.toList = start ++ owner ++ ',' :: key ∧ ',' ∉ owner
        ∧ card.text.toList = start ++ owner ++ ',' :: key.map Char.toLower := by
  intro identity card upper
  obtain ⟨back, _, again⟩ := parse_text_and_text_of_parse card
  have read : parse upper = .ok card := by
    refine parse_eq_ok.2 ⟨List.replicate 64 'A', ?_, ?_, ?_⟩
    · rw [String.toList_ofList]
    · decide
    · rfl
  exact ⟨back.2 (by decide), read, again upper read⟩

/-- A card whose identity has a comma is not read from its text. -/
theorem parse_text_of_comma :
    let card : ContactCard := ⟨⟨"A,BCDEFG", by decide⟩, ⟨List.replicate 32 0xAA, rfl⟩⟩
    parse card.text = .error (.illegalIdentity "A") ∧ parse card.text ≠ .ok card := by
  intro card
  have whole : card.text.toList
      = start ++ ['A'] ++ ',' :: ("BCDEFG".toList ++ ',' :: card.publicKey.toHex.toList) := by
    have identity : card.identity.text.toList = ['A'] ++ ',' :: "BCDEFG".toList := by decide
    rw [toList_text, identity]
    simp only [List.append_assoc, List.cons_append]
  have refused : parse card.text = .error (.illegalIdentity "A") := by
    rw [parse_of_eq whole (by decide), Identity.parse_of_length_ne (by decide)]
    rfl
  exact ⟨refused, fun h => nomatch refused.symm.trans h⟩

end ContactCard

end SealedEnvelope
