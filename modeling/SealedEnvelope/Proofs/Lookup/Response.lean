import SealedEnvelope.Lookup.Bulk
import SealedEnvelope.Proofs.Json.Layout
import SealedEnvelope.Proofs.Json.Soundness
import SealedEnvelope.Proofs.Octets.HexText

/-!
# What a bulk response says (SPEC_FULL §10.2)

A response is a map from each hash that one of its items names to the participant of the last item
that names it.  It is refused for the first item that spells something wrong, and before all of its
items as a document; the two kinds of refusal have different errors.
-/

set_option autoImplicit false

namespace SealedEnvelope

open Outcome (bind_eq_ok pure_eq_ok error? error?_bind error?_eq_some error?_eq_none
  findSome?_cons_eq_or)

/-- The values of an array that was read to its end. -/
def Json.Items.toList : Items → List Value
  | .closed => []
  | .broken => []
  | .cons head tail => head :: tail.toList

namespace Lookup

namespace ResponseItem

/-! ## Items -/

/-- The texts of the hashes that an item was found by. -/
def hashTexts (item : ResponseItem) : List String := item.phoneHash.toList ++ item.emailHash.toList

/-- Whether an item was found by a hash. -/
def Names (item : ResponseItem) (hash : LookupHash) : Prop :=
  ∃ text ∈ item.hashTexts, hash.SpelledBy text

/-- The participant of an item. -/
structure IsOf (item : ResponseItem) (found : Match) : Prop where
  identity : found.identity.text = item.identity
  publicKey : found.publicKey.SpelledBy item.publicKey

/-- An item of which everything can be read. -/
structure Valid (item : ResponseItem) : Prop where
  identity : Identity.isLegal item.identity = true
  publicKey : ∃ key : PublicKey, key.SpelledBy item.publicKey
  hashes : ∀ text ∈ item.hashTexts, ∃ hash : LookupHash, hash.SpelledBy text

/-- What is wrong with a text of a hash, if there is one. -/
def hashError? (text : Option String) : Option Error :=
  text.bind fun text => error? (Octets.parseHex .lookupHash .lookupHash text)

/-- What each check finds wrong, in the order in which the checks are made. -/
def checks (item : ResponseItem) : List (Option Error) :=
  [error? (Identity.parse item.identity),
   error? (Octets.parseHex .publicKey .publicKey item.publicKey),
   hashError? item.phoneHash,
   hashError? item.emailHash]

/-- What the first check finds wrong that fails. -/
def firstFailure (item : ResponseItem) : Option Error := item.checks.findSome? id

theorem error?_parse_eq_none {text : String} :
    error? (Identity.parse text) = none ↔ Identity.isLegal text = true := by
  rw [error?_eq_none]
  constructor
  · rintro ⟨identity, parsed⟩
    rw [← Identity.parse_eq_ok.1 parsed]
    exact identity.legal
  · exact fun legal => ⟨⟨text, legal⟩, Identity.parse_eq_ok.2 rfl⟩

theorem error?_parseHex_eq_none {role : Role} {subject : Subject} {text : String} :
    error? (Octets.parseHex role subject text) = none
      ↔ ∃ value : Octets role, value.SpelledBy text := by
  simp only [error?_eq_none, Octets.parseHex_eq_ok]

theorem hashError?_eq_none {text : Option String} :
    hashError? text = none
      ↔ ∀ digits ∈ text.toList, ∃ hash : LookupHash, hash.SpelledBy digits := by
  cases text with
  | none => simp [hashError?]
  | some text =>
    simp only [hashError?, Option.bind_some, error?_parseHex_eq_none, Option.toList_some,
      List.mem_singleton, forall_eq]

/-- No check fails of the items of which everything can be read, and of no others. -/
theorem firstFailure_eq_none {item : ResponseItem} : item.firstFailure = none ↔ item.Valid := by
  simp only [firstFailure, checks, List.findSome?_eq_none_iff, List.mem_cons, List.not_mem_nil,
    or_false, forall_eq_or_imp, forall_eq, id, error?_parse_eq_none, error?_parseHex_eq_none,
    hashError?_eq_none]
  constructor
  · rintro ⟨identity, publicKey, phone, email⟩
    refine ⟨identity, publicKey, fun text mem => ?_⟩
    exact (List.mem_append.1 mem).elim (phone text) (email text)
  · rintro ⟨identity, publicKey, hashes⟩
    exact ⟨identity, publicKey, fun text mem => hashes text (List.mem_append_left _ mem),
      fun text mem => hashes text (List.mem_append_right _ mem)⟩

end ResponseItem

open ResponseItem (Names IsOf Valid hashError? firstFailure checks)

/-! ## The entries of an item -/

theorem matchOf_eq_ok {item : ResponseItem} {found : Match} :
    matchOf item = .ok found ↔ item.IsOf found := by
  simp only [matchOf, bind_eq_ok, pure_eq_ok, Identity.parse_eq_ok, Octets.parseHex_eq_ok]
  constructor
  · rintro ⟨identity, sameText, publicKey, spelled, rfl⟩
    exact ⟨sameText, spelled⟩
  · rintro ⟨identity, publicKey⟩
    exact ⟨found.identity, identity, found.publicKey, publicKey, rfl⟩

/-- A text gives the hash that it spells. -/
theorem mem_iff_of_hashOf {text : Option String} {hashes : List LookupHash}
    (h : hashOf text = .ok hashes) (hash : LookupHash) :
    hash ∈ hashes ↔ ∃ digits ∈ text.toList, hash.SpelledBy digits := by
  cases text with
  | none =>
    cases h
    simp
  | some text =>
    simp only [hashOf, bind_eq_ok, pure_eq_ok] at h
    obtain ⟨only, parsed, rfl⟩ := h
    have spelled : hash.SpelledBy text ↔ hash = only := by
      rw [← @Octets.parseHex_eq_ok _ .lookupHash, parsed, Except.ok.injEq, eq_comm]
    rw [Option.toList_some, List.mem_singleton, ← spelled]
    constructor
    · exact fun spelled => ⟨text, List.mem_singleton_self text, spelled⟩
    · rintro ⟨digits, mem, spelled⟩
      rwa [← List.mem_singleton.1 mem]

/-- The entries of an item are the hashes that it names, each with its participant. -/
theorem mem_iff_of_entriesOf {item : ResponseItem} {entries : List (LookupHash × Match)}
    (h : entriesOf item = .ok entries) (hash : LookupHash) (found : Match) :
    (hash, found) ∈ entries ↔ item.Names hash ∧ item.IsOf found := by
  simp only [entriesOf, bind_eq_ok, pure_eq_ok] at h
  obtain ⟨only, isOf, phone, phoneRead, email, emailRead, rfl⟩ := h
  have names : hash ∈ phone ++ email ↔ item.Names hash := by
    simp only [List.mem_append, mem_iff_of_hashOf phoneRead, mem_iff_of_hashOf emailRead, Names,
      ResponseItem.hashTexts, or_and_right, exists_or]
  have same : item.IsOf found ↔ found = only := by
    rw [← matchOf_eq_ok, isOf, Except.ok.injEq, eq_comm]
  rw [← names, same, List.mem_map]
  constructor
  · rintro ⟨hash, mem, ⟨⟩⟩
    exact ⟨mem, rfl⟩
  · rintro ⟨mem, rfl⟩
    exact ⟨hash, mem, rfl⟩

theorem mem_keys_of_entriesOf {item : ResponseItem} {entries : List (LookupHash × Match)}
    (h : entriesOf item = .ok entries) (hash : LookupHash) :
    hash ∈ entries.map Prod.fst ↔ item.Names hash := by
  constructor
  · intro isKey
    obtain ⟨⟨key, found⟩, mem, rfl⟩ := List.mem_map.1 isKey
    exact ((mem_iff_of_entriesOf h key found).1 mem).1
  · intro names
    obtain ⟨found, read, _⟩ := bind_eq_ok.1 h
    exact List.mem_map_of_mem ((mem_iff_of_entriesOf h hash found).2 ⟨names, matchOf_eq_ok.1 read⟩)

/-- In the entries of an item alone each hash is found with its participant. -/
theorem get?_ofList_of_entriesOf {item : ResponseItem} {entries : List (LookupHash × Match)}
    (h : entriesOf item = .ok entries) (hash : LookupHash) (found : Match) :
    (Table.ofList entries).get? hash = some found ↔ item.Names hash ∧ item.IsOf found := by
  constructor
  · exact fun got => (mem_iff_of_entriesOf h hash found).1 (Table.mem_of_get?_ofList got)
  · rintro ⟨names, isOf⟩
    have isKey := (mem_keys_of_entriesOf h hash).2 names
    cases got : (Table.ofList entries).get? hash with
    | none => exact absurd isKey (Table.get?_ofList_eq_none.1 got)
    | some other =>
      have isOther := ((mem_iff_of_entriesOf h hash other).1 (Table.mem_of_get?_ofList got)).2
      have same := (matchOf_eq_ok.2 isOther).symm.trans (matchOf_eq_ok.2 isOf)
      rw [Except.ok.inj same]

theorem error?_hashOf (text : Option String) : error? (hashOf text) = hashError? text := by
  cases text with
  | none => rfl
  | some text =>
    change error? (Octets.parseHex .lookupHash .lookupHash text >>= fun hash => pure [hash])
      = error? (Octets.parseHex .lookupHash .lookupHash text)
    cases Octets.parseHex .lookupHash .lookupHash text with
    | ok hash => rfl
    | error fault => rfl

theorem error?_matchOf (item : ResponseItem) :
    error? (matchOf item) = (error? (Identity.parse item.identity)).or
      (error? (Octets.parseHex .publicKey .publicKey item.publicKey)) := by
  unfold matchOf
  refine error?_bind fun _ _ => ?_
  cases Octets.parseHex .publicKey .publicKey item.publicKey with
  | ok key => rfl
  | error fault => rfl

/-- An item is refused by the first check that fails. -/
theorem error?_entriesOf (item : ResponseItem) :
    error? (entriesOf item) = item.firstFailure := by
  simp only [firstFailure, checks, findSome?_cons_eq_or, List.findSome?_nil, id, Option.or_none]
  rw [← Option.or_assoc, ← error?_matchOf, ← error?_hashOf, ← error?_hashOf]
  unfold entriesOf
  refine error?_bind fun _ _ => ?_
  refine error?_bind fun _ _ => ?_
  cases hashOf item.emailHash with
  | ok hashes => rfl
  | error fault => rfl

/-! ## The entries of all items -/

/-- Items are refused for the first one that fails. -/
theorem error?_entriesOfAll (items : List ResponseItem) :
    error? (entriesOfAll items) = items.findSome? firstFailure := by
  induction items with
  | nil => rfl
  | cons item items ih =>
    rw [findSome?_cons_eq_or, ← error?_entriesOf, ← ih, entriesOfAll]
    refine error?_bind fun _ _ => ?_
    cases entriesOfAll items with
    | ok others => rfl
    | error fault => rfl

/-- The last item that names a hash is one of a participant. -/
def IsLast (items : List ResponseItem) (hash : LookupHash) (found : Match) : Prop :=
  ∃ before item after, items = before ++ item :: after ∧ item.Names hash ∧ item.IsOf found
    ∧ ∀ later ∈ after, ¬ later.Names hash

theorem isLast_cons {item : ResponseItem} {items : List ResponseItem} {hash : LookupHash}
    {found : Match} :
    IsLast (item :: items) hash found
      ↔ IsLast items hash found
        ∨ (∀ later ∈ items, ¬ later.Names hash) ∧ item.Names hash ∧ item.IsOf found := by
  constructor
  · rintro ⟨before, last, after, cut, names, isOf, later⟩
    cases before with
    | nil =>
      cases cut
      exact .inr ⟨later, names, isOf⟩
    | cons first before =>
      cases cut
      exact .inl ⟨before, last, after, rfl, names, isOf, later⟩
  · rintro (⟨before, last, after, rfl, names, isOf, later⟩ | ⟨later, names, isOf⟩)
    · exact ⟨item :: before, last, after, rfl, names, isOf, later⟩
    · exact ⟨[], item, items, rfl, names, isOf, later⟩

/-- The hashes of all entries are those that an item names. -/
theorem mem_keys_of_entriesOfAll {items : List ResponseItem} {entries : List (LookupHash × Match)}
    (h : entriesOfAll items = .ok entries) (hash : LookupHash) :
    hash ∈ entries.map Prod.fst ↔ ∃ item ∈ items, item.Names hash := by
  induction items generalizing entries with
  | nil =>
    cases h
    simp
  | cons item items ih =>
    simp only [entriesOfAll, bind_eq_ok, pure_eq_ok] at h
    obtain ⟨first, firstRead, others, othersRead, rfl⟩ := h
    rw [List.map_append, List.mem_append, mem_keys_of_entriesOf firstRead, ih othersRead]
    simp only [List.mem_cons, exists_eq_or_imp]

/-- Each hash is found with the participant of the last item that names it. -/
theorem get?_ofList_of_entriesOfAll {items : List ResponseItem}
    {entries : List (LookupHash × Match)} (h : entriesOfAll items = .ok entries)
    (hash : LookupHash) (found : Match) :
    (Table.ofList entries).get? hash = some found ↔ IsLast items hash found := by
  induction items generalizing entries with
  | nil =>
    cases h
    simp [IsLast, Table.ofList, Table.insertMany]
  | cons item items ih =>
    simp only [entriesOfAll, bind_eq_ok, pure_eq_ok] at h
    obtain ⟨first, firstRead, others, othersRead, rfl⟩ := h
    have unnamed : (Table.ofList others).get? hash = none
        ↔ ∀ later ∈ items, ¬ later.Names hash := by
      rw [Table.get?_ofList_eq_none, mem_keys_of_entriesOfAll othersRead]
      simp only [not_exists, not_and]
    rw [Table.get?_ofList_append, Option.or_eq_some_iff, ih othersRead, unnamed,
      get?_ofList_of_entriesOf firstRead, isLast_cons]

/-! ## Responses -/

/-- Whether a text is an array of items: a document of an array, of which each value is one. -/
def Lists (body : String) (items : List ResponseItem) : Prop :=
  ∃ values, Json.DenotesDocument (Utf8.encode body) (.array values)
    ∧ values.toList.map ResponseItem.ofValue = items.map .ok

/-- The items of a text as the reader finds them. -/
def itemsOf (body : String) : Except Json.Fault (List ResponseItem) :=
  Json.document ResponseItem.listOfValue (Utf8.encode body)

namespace ResponseItem

theorem isComplete_of_ofValue {value : Json.Value} {item : ResponseItem}
    (h : ofValue value = .ok item) : value.isComplete = true := by
  obtain ⟨record, read, _⟩ := bind_eq_ok.1 h
  refine Json.Record.isComplete_of_ofValue ?_ read
  have text (value : Json.Value) (h : value.isText = true) : value.isComplete = true :=
    Json.Value.isComplete_of_isTextOrNull (Json.Value.isTextOrNull_of_isText h)
  have textOrNull (value : Json.Value) (h : value.isTextOrNull = true) :
      value.isComplete = true := Json.Value.isComplete_of_isTextOrNull h
  simp only [fields, List.forall_mem_cons]
  exact ⟨textOrNull, textOrNull, text, text, List.forall_mem_nil _⟩

/-- Items are read from whole arrays of which each value is one. -/
theorem ofItems_eq_ok {values : Json.Items} {items : List ResponseItem} :
    ofItems values = .ok items
      ↔ values.isComplete = true ∧ values.toList.map ofValue = items.map .ok := by
  fun_induction ofItems values generalizing items with
  | case1 => simp [Json.Items.isComplete, Json.Items.toList, eq_comm]
  | case2 => simp [Json.Items.isComplete]
  | case3 head tail ih =>
    rw [Json.Items.isComplete, Json.Items.toList, List.map_cons, Bool.and_eq_true]
    constructor
    · intro h
      obtain ⟨item, headRead, rest⟩ := bind_eq_ok.1 h
      obtain ⟨others, tailRead, same⟩ := bind_eq_ok.1 rest
      obtain rfl := pure_eq_ok.1 same
      obtain ⟨whole, each⟩ := ih.1 tailRead
      exact ⟨⟨isComplete_of_ofValue headRead, whole⟩, by rw [headRead, each, List.map_cons]⟩
    · rintro ⟨⟨_, whole⟩, each⟩
      cases items with
      | nil => cases each
      | cons item items =>
        obtain ⟨headRead, tailRead⟩ := List.cons.inj each
        rw [headRead, ih.2 ⟨whole, tailRead⟩]
        rfl

theorem listOfValue_eq_ok {value : Json.Value} {items : List ResponseItem} :
    listOfValue value = .ok items
      ↔ ∃ values, value = .array values ∧ ofItems values = .ok items := by
  constructor
  · intro h
    unfold listOfValue at h
    split at h
    · exact ⟨_, rfl, h⟩
    · cases h
  · rintro ⟨values, rfl, h⟩
    exact h

end ResponseItem

/-- The reader finds the items of the texts that are arrays of items, and of no others. -/
theorem itemsOf_eq_ok {body : String} {items : List ResponseItem} :
    itemsOf body = .ok items ↔ Lists body items := by
  have whole (value : Json.Value) (items : List ResponseItem)
      (h : ResponseItem.listOfValue value = .ok items) : value.isComplete = true := by
    obtain ⟨values, rfl, read⟩ := ResponseItem.listOfValue_eq_ok.1 h
    exact (ResponseItem.ofItems_eq_ok.1 read).1
  rw [itemsOf, Json.document_eq_ok_iff whole]
  constructor
  · rintro ⟨value, document, h⟩
    obtain ⟨values, rfl, read⟩ := ResponseItem.listOfValue_eq_ok.1 h
    exact ⟨values, document, (ResponseItem.ofItems_eq_ok.1 read).2⟩
  · rintro ⟨values, document, each⟩
    have complete : values.isComplete = true := Json.isComplete_of_denotesDocument document
    exact ⟨.array values, document, ResponseItem.ofItems_eq_ok.2 ⟨complete, each⟩⟩

/-- The map that items tell: each hash that one of them names, with the participant of the last one
that names it. -/
structure IsTable (items : List ResponseItem) (table : Table LookupHash Match) : Prop where
  distinct : (table.entries.map Prod.fst).Nodup
  keys : ∀ hash, hash ∈ table.entries.map Prod.fst ↔ ∃ item ∈ items, item.Names hash
  entries : ∀ hash found, (hash, found) ∈ table.entries ↔ IsLast items hash found

theorem isTable_ofList {items : List ResponseItem} {entries : List (LookupHash × Match)}
    (h : entriesOfAll items = .ok entries) : IsTable items (Table.ofList entries) := by
  refine ⟨Table.nodup_ofList entries, fun hash => ?_, fun hash found => ?_⟩
  · rw [Table.mem_keys_ofList, mem_keys_of_entriesOfAll h]
  · rw [Table.mem_entries_ofList, get?_ofList_of_entriesOfAll h]

variable {body : String} {items : List ResponseItem}

theorem readResponse_eq_map (parsed : itemsOf body = .ok items) :
    readResponse body = (entriesOfAll items).map Table.ofList := by
  unfold readResponse
  rw [itemsOf] at parsed
  rw [parsed]

theorem readResponse_of_valid (parsed : itemsOf body = .ok items)
    (valid : ∀ item ∈ items, item.Valid) :
    ∃ table, readResponse body = .ok table ∧ IsTable items table := by
  have noError : error? (entriesOfAll items) = none := by
    rw [error?_entriesOfAll, List.findSome?_eq_none_iff]
    exact fun item mem => ResponseItem.firstFailure_eq_none.2 (valid item mem)
  obtain ⟨entries, read⟩ := error?_eq_none.1 noError
  refine ⟨Table.ofList entries, ?_, isTable_ofList read⟩
  rw [readResponse_eq_map parsed, read]
  rfl

theorem readResponse_of_not_valid {before after : List ResponseItem} {item : ResponseItem}
    (parsed : itemsOf body = .ok (before ++ item :: after))
    (valid : ∀ earlier ∈ before, earlier.Valid) (bad : ¬ item.Valid) :
    ∃ error, item.firstFailure = some error ∧ readResponse body = .error error := by
  cases failure : item.firstFailure with
  | none => exact absurd (ResponseItem.firstFailure_eq_none.1 failure) bad
  | some error =>
    have passed : before.findSome? firstFailure = none := by
      rw [List.findSome?_eq_none_iff]
      exact fun earlier mem => ResponseItem.firstFailure_eq_none.2 (valid earlier mem)
    have first : error? (entriesOfAll (before ++ item :: after)) = some error := by
      rw [error?_entriesOfAll, List.findSome?_append, passed, Option.none_or,
        List.findSome?_cons, failure]
    refine ⟨error, rfl, ?_⟩
    rw [readResponse_eq_map parsed, error?_eq_some.1 first]
    rfl

/-- What is wrong with an item is told as such and not as a fault of the document. -/
theorem ne_malformed_of_firstFailure {item : ResponseItem} {error : Error}
    (h : item.firstFailure = some error) (context : Context) (reason : Reason) :
    error ≠ .malformed context reason := by
  have octets {role : Role} {subject : Subject} {text : String}
      (found : error? (Octets.parseHex role subject text) = some error) :
      error ≠ .malformed context reason := by
    obtain ⟨fault, _, rfl⟩ := Outcome.mapError_eq_error.1 (error?_eq_some.1 found)
    cases fault <;> nofun
  have hash {text : Option String} (found : hashError? text = some error) :
      error ≠ .malformed context reason := by
    obtain ⟨digits, _, refused⟩ := Option.bind_eq_some_iff.1 found
    exact octets refused
  obtain ⟨check, mem, found⟩ := List.exists_of_findSome?_eq_some h
  change check = some error at found
  subst found
  simp only [checks, List.mem_cons, List.not_mem_nil, or_false] at mem
  obtain identity | publicKey | phone | email := mem
  · obtain ⟨_, rfl⟩ := Identity.parse_eq_error.1 (error?_eq_some.1 identity.symm)
    nofun
  · exact octets publicKey.symm
  · exact hash phone.symm
  · exact hash email.symm

/-- A text is refused as a document exactly if it is no array of items. -/
theorem readResponse_eq_malformed :
    (∃ fault, readResponse body = .error (.malformed .bulkResponse (.notRecord fault)))
      ↔ ¬ ∃ items, Lists body items := by
  constructor
  · rintro ⟨fault, refused⟩ ⟨items, lists⟩
    rw [readResponse_eq_map (itemsOf_eq_ok.2 lists), ← error?_eq_some, Outcome.error?_map,
      error?_entriesOfAll] at refused
    obtain ⟨item, _, failure⟩ := List.exists_of_findSome?_eq_some refused
    exact ne_malformed_of_firstFailure failure _ _ rfl
  · intro nothing
    cases parsed : itemsOf body with
    | ok items => exact absurd ⟨items, itemsOf_eq_ok.1 parsed⟩ nothing
    | error fault =>
      refine ⟨fault, ?_⟩
      unfold readResponse
      rw [itemsOf] at parsed
      rw [parsed]

end Lookup

end SealedEnvelope
