import SealedEnvelope.Proofs.Json.Grammar
import SealedEnvelope.Proofs.Json.Layout
import SealedEnvelope.Proofs.Message.Acceptance

/-!
# Files in any layout (SPEC_FULL §6)

The body of a file says the same in whatever order its members stand, with whatever spaces and other
members between them.  Only its own members may not come twice, and every name must spell a text.
-/

set_option autoImplicit false

namespace SealedEnvelope

/-! ## The members that tell a record -/

namespace FileRecord

/-- The names of the record's fields. -/
def names : List String := fields.map Json.Field.name

example : names = ["b", "t", "k", "m", "n", "d", "c", "s", "j"] := rfl

/-- How an object tells a text that need not be there. -/
inductive TellsText (name : String) : Option String → Json.Record → Prop
  | text (text : String) : TellsText name (some text) [(name, .string (some text))]
  | null : TellsText name none [(name, .null)]
  | absent : TellsText name none []

/-- How an object tells the number of a rendering. -/
inductive TellsRendering : Nat → Json.Record → Prop
  | number (n : Nat) : TellsRendering n [("j", .number (some n))]
  | absent : TellsRendering 0 []

/-- How an object tells a record, but for the order of its members. -/
inductive Tells (record : FileRecord) : Json.Record → Prop
  | mk {t n d c j : Json.Record} : TellsText "t" record.thumbnailId t →
      TellsText "n" record.name n → TellsText "d" record.description d →
      TellsText "c" record.correlationId c → TellsRendering record.rendering j →
      Tells record ([("b", .string (some record.blobId))] ++ t
        ++ [("k", .string (some record.key)), ("m", .string (some record.mimeType))] ++ n ++ d ++ c
        ++ [("s", .number (some record.size))] ++ j)

variable {name : String} {text : Option String} {rendering : Nat} {members : Json.Record}

theorem TellsText.keys_sublist (h : TellsText name text members) :
    (members.map Prod.fst).Sublist [name] := by
  cases h with
  | text text => exact List.Sublist.refl _
  | null => exact List.Sublist.refl _
  | absent => exact List.nil_sublist _

theorem TellsText.eq_of_mem (h : TellsText name text members) {member : String × Json.Value}
    (mem : member ∈ members) : member.1 = name ∧ member.2.isTextOrNull = true := by
  cases h with
  | text text =>
    rw [List.mem_singleton] at mem
    subst mem
    exact ⟨rfl, rfl⟩
  | null =>
    rw [List.mem_singleton] at mem
    subst mem
    exact ⟨rfl, rfl⟩
  | absent => exact absurd mem List.not_mem_nil

theorem TellsText.value?_of_ne (h : TellsText name text members) {other : String}
    (ne : other ≠ name) : members.value? other = none := by
  refine Json.Record.value?_eq_none_of_not_mem fun mem => ne ?_
  exact List.mem_singleton.1 (h.keys_sublist.subset mem)

/-- A text that is missing is read as missing, and so is null. -/
theorem TellsText.text?_eq (h : TellsText name text members) {found : Json.Record}
    (agrees : found.value? name = members.value? name) : found.text? name = text := by
  rw [Json.Record.text?, agrees]
  cases h with
  | text text => rw [Json.Record.value?_cons, if_pos rfl]
  | null => rw [Json.Record.value?_cons, if_pos rfl]
  | absent => rfl

theorem TellsRendering.keys_sublist (h : TellsRendering rendering members) :
    (members.map Prod.fst).Sublist ["j"] := by
  cases h with
  | number => exact List.Sublist.refl _
  | absent => exact List.nil_sublist _

theorem TellsRendering.value?_of_ne (h : TellsRendering rendering members) {other : String}
    (ne : other ≠ "j") : members.value? other = none := by
  refine Json.Record.value?_eq_none_of_not_mem fun mem => ne ?_
  exact List.mem_singleton.1 (h.keys_sublist.subset mem)

/-- A rendering that is missing is the first. -/
theorem TellsRendering.natural?_eq (h : TellsRendering rendering members) {found : Json.Record}
    (agrees : found.value? "j" = members.value? "j") :
    (found.natural? "j").getD 0 = rendering := by
  rw [Json.Record.natural?, agrees]
  cases h with
  | number => rfl
  | absent => rfl

variable {record : FileRecord}

theorem Tells.keys_sublist (h : record.Tells members) :
    (members.map Prod.fst).Sublist names := by
  obtain ⟨t, n, d, c, j⟩ := h
  simp only [List.map_append]
  exact ((((((List.Sublist.refl ["b"]).append t.keys_sublist).append
    (List.Sublist.refl ["k", "m"])).append n.keys_sublist).append d.keys_sublist).append
    c.keys_sublist).append (List.Sublist.refl ["s"]) |>.append j.keys_sublist

/-- The fields of the record admit what tells it. -/
theorem Tells.admitted (h : record.Tells members) (size : record.size < 2 ^ 32)
    (rendering : record.rendering < 256) : Json.Record.Admitted fields members := by
  refine ⟨?_, h.keys_sublist.nodup (by decide)⟩
  have optional {name : String} (text : Option String) {part : Json.Record}
      (tells : TellsText name text part) {member : String × Json.Value} (mem : member ∈ part)
      (field : fields.find? (fun field => field.name = name)
        = some ⟨name, Json.Value.isTextOrNull, true⟩) :
      ∃ field, fields.find? (fun field => field.name = member.1) = some field
        ∧ field.admits member.2 = true := by
    obtain ⟨rfl, admits⟩ := tells.eq_of_mem mem
    exact ⟨_, field, admits⟩
  intro member mem
  obtain ⟨t, n, d, c, j⟩ := h
  simp only [List.mem_append, List.mem_cons, List.not_mem_nil, or_false] at mem
  rcases mem with ((((((rfl | mem) | rfl | rfl) | mem) | mem) | mem) | rfl) | mem
  · exact ⟨_, rfl, rfl⟩
  · exact optional _ t mem rfl
  · exact ⟨_, rfl, rfl⟩
  · exact ⟨_, rfl, rfl⟩
  · exact optional _ n mem rfl
  · exact optional _ d mem rfl
  · exact optional _ c mem rfl
  · exact ⟨_, rfl, decide_eq_true (by omega)⟩
  · generalize record.rendering = number at j rendering
    cases j with
    | number =>
      rw [List.mem_singleton] at mem
      subst mem
      exact ⟨_, rfl, decide_eq_true (by omega)⟩
    | absent => exact absurd mem List.not_mem_nil

/-- The fields that are told are those of the record. -/
theorem Tells.ofFields_eq (h : record.Tells members) {found : Json.Record}
    (agrees : ∀ name, found.value? name = members.value? name) : ofFields found = .ok record := by
  obtain ⟨ht, hn, hd, hc, hj⟩ := h
  have nothing (name : String) : Json.Record.value? [] name = none := rfl
  simp only [Json.Record.value?_append, Json.Record.value?_cons, nothing] at agrees
  have b : found.text "b" = .ok record.blobId :=
    Json.Record.text_of_value? (by simp [agrees])
  have k : found.text "k" = .ok record.key :=
    Json.Record.text_of_value? (by simp [agrees, ht.value?_of_ne])
  have m : found.text "m" = .ok record.mimeType :=
    Json.Record.text_of_value? (by simp [agrees, ht.value?_of_ne])
  have s : found.natural "s" = .ok record.size :=
    Json.Record.natural_of_value? (by
      simp [agrees, ht.value?_of_ne, hn.value?_of_ne, hd.value?_of_ne, hc.value?_of_ne])
  have t : found.text? "t" = record.thumbnailId := ht.text?_eq (by
    simp [agrees, hn.value?_of_ne, hd.value?_of_ne, hc.value?_of_ne, hj.value?_of_ne])
  have n : found.text? "n" = record.name := hn.text?_eq (by
    simp [agrees, ht.value?_of_ne, hd.value?_of_ne, hc.value?_of_ne, hj.value?_of_ne])
  have d : found.text? "d" = record.description := hd.text?_eq (by
    simp [agrees, ht.value?_of_ne, hn.value?_of_ne, hc.value?_of_ne, hj.value?_of_ne])
  have c : found.text? "c" = record.correlationId := hc.text?_eq (by
    simp [agrees, ht.value?_of_ne, hn.value?_of_ne, hd.value?_of_ne, hj.value?_of_ne])
  have j : (found.natural? "j").getD 0 = record.rendering := hj.natural?_eq (by
    simp [agrees, ht.value?_of_ne, hn.value?_of_ne, hd.value?_of_ne, hc.value?_of_ne])
  rw [ofFields, b, k, m, s, t, n, d, c]
  simp only [j, bind, Except.bind, pure, Except.pure]

/-- The record that members tell is read from them in any order, with others among them. -/
theorem Tells.read_eq (h : record.Tells members) (size : record.size < 2 ^ 32)
    (rendering : record.rendering < 256) {others list : Json.Record}
    (unknown : ∀ member ∈ others, member.1 ∉ names) (perm : list.Perm (members ++ others))
    {body : Bytes} (document : Json.DenotesDocument body (.object (Json.Members.ofList list))) :
    read body = .ok record := by
  have complete := Json.isComplete_of_denotesDocument document
  obtain ⟨found, eq, agrees⟩ :=
    Json.Record.ofValue_of_perm (h.admitted size rendering) unknown perm complete
  rw [read, Json.document_of_denotesDocument ofValue document, ofValue, eq]
  exact h.ofFields_eq agrees

end FileRecord

/-! ## Files -/

namespace File

/-- A document that no record is read from is refused as a malformed file. -/
theorem decode_of_refused {body : Bytes} {members : Json.Members}
    (document : Json.DenotesDocument body (.object members))
    (refused : ∃ fault, Json.Record.ofValue FileRecord.fields (.object members) = .error fault) :
    ∃ error, decode body = .error error ∧ error.kind = .format := by
  obtain ⟨fault, refused⟩ := refused
  have read : FileRecord.read body = .error fault := by
    rw [FileRecord.read, Json.document_of_denotesDocument _ document, FileRecord.ofValue, refused]
    rfl
  have decoded : decode body = .error (.malformed .fileMessage (.notRecord fault)) := by
    rw [decode, read]
  exact ⟨_, decoded, rfl⟩

/-- A file that is read back from its own encoding is read from every document that tells its
record, whatever the order of the members, the spaces, the escapes and the further members, of which
the names are texts other than its own.  A document that has one of its names twice is refused, and
so is one with a member of which the name spells no text, such as half of a surrogate pair. -/
theorem decode_layout (body : Bytes) :
    (∀ (file : File) (known others list : Json.Record), decode file.encode = .ok file →
      file.record.Tells known → (∀ member ∈ others, member.1 ∉ FileRecord.names) →
      list.Perm (known ++ others) →
      Json.DenotesDocument body (.object (Json.Members.ofList list)) → decode body = .ok file)
    ∧ (∀ (members : Json.Members) (name : String), name ∈ FileRecord.names →
      2 ≤ members.keys.count (some name) → Json.DenotesDocument body (.object members) →
        ∃ error, decode body = .error error ∧ error.kind = .format)
    ∧ ∀ members : Json.Members, none ∈ members.keys → Json.DenotesDocument body (.object members) →
        ∃ error, decode body = .error error ∧ error.kind = .format := by
  refine ⟨?_, ?_, ?_⟩
  · intro file known others list whole tells unknown perm document
    rw [decode_encode_eq_ofRecord] at whole
    rw [decode, tells.read_eq file.size_record_lt file.rendering_record_lt unknown perm document]
    exact whole
  · intro members name known twice document
    exact decode_of_refused document (Json.Record.exists_error_of_count known twice)
  · intro members unspelled document
    exact decode_of_refused document (Json.Record.exists_error_of_none unspelled)

/-- A file with a caption, told in reverse with spaces, escapes, a null, without its rendering and
after a member that is no file's; the same after a rendering that comes twice; and the same after a
member that is named with half of a surrogate pair. -/
theorem decode_layout_reversed :
    let key : Octets .symmetricKey := ⟨List.replicate 32 7, rfl⟩
    let id : Octets .blobId := ⟨Bytes.zeros 16, rfl⟩
    let file := (File.make ⟨Blob.file key, id, 5⟩ "a/b" .file).withDescription "π"
    let members := " \"x\":[1e2 ,\x7b\"s\":\"\\ud800\"\x7d] ,\"s\" : 5,".toList
      ++ "\"d\":\"\\u03C0\",\"\\u006d\":\"a\\/b\",\n\t\"k\":\"".toList ++ Hex.encodeChars key.toList
      ++ "\",\"t\":null,\"b\":\"".toList ++ Hex.encodeChars id.toList ++ "\" \x7d\r\n".toList
    decode (Utf8.encodeChars ('\x7b' :: members)) = .ok file
      ∧ (∃ error,
        decode (Utf8.encodeChars ("\x7b\"j\":0,\"j\":0,".toList ++ members)) = .error error
          ∧ error.kind = .format)
      ∧ ∃ error,
        decode (Utf8.encodeChars ("\x7b\"\\ud800\":0,".toList ++ members)) = .error error
          ∧ error.kind = .format := by
  intro key id file members
  have tight : Json.IsBlank [] := Json.isBlank_nil
  have space : Json.IsBlank [0x20] := by decide
  have lines : Json.IsBlank [0x0A, 0x09] := by decide
  have ending : Json.IsBlank [0x0D, 0x0A] := by decide
  -- the member of another name
  have hundred : Json.DenotesNumber _ none :=
    .decimal 1 .absent (.present (.inl rfl) (.inl rfl)
      ⟨List.cons_ne_nil 0x32 [], List.forall_mem_singleton.2 (by decide)⟩) (List.cons_ne_nil _ _)
  have half : Json.Denotes _ (.string none) :=
    .string [.code ⟨0x64, 13, rfl⟩ ⟨0x38, 8, rfl⟩ ⟨0x30, 0, rfl⟩ ⟨0x30, 0, rfl⟩]
  have nested : Json.Denotes _ (.object (.cons (some "s") (.string none) .closed)) :=
    .object (.member (.cons [.plain 's' rfl] tight tight tight half (.closed tight)))
  have other : Json.Denotes _ (.array (.cons (.number none) (.cons (.object _) .closed))) :=
    .array (.cons tight (.number hundred) (.cons space tight nested (.closed tight)))
  let others : Json.Record := [("x", .array (.cons (.number none)
    (.cons (.object (.cons (some "s") (.string none) .closed)) .closed)))]
  -- the members of the record, from the last to the first
  let known : Json.Record := [("b", .string (some id.toHex)), ("t", .null),
    ("k", .string (some key.toHex)), ("m", .string (some "a/b")), ("d", .string (some "π")),
    ("s", .number (some 5))]
  have keyText : Json.Denotes _ (.string (some key.toHex)) := Json.denotes_plain (by decide +kernel)
  have idText : Json.Denotes _ (.string (some id.toHex)) := Json.denotes_plain (by decide +kernel)
  have written : Json.DenotesMember _ (Json.Members.ofList (known ++ others).reverse) :=
    .cons [.plain 'x' rfl] space tight tight other <|
    .member space <| .cons [.plain 's' rfl] tight space space (.number (.natural 5)) <|
    .member tight <| .cons [.plain 'd' rfl] tight tight tight
      (.string [.code ⟨0x30, 0, rfl⟩ ⟨0x33, 3, rfl⟩ ⟨0x43, 12, rfl⟩ ⟨0x30, 0, rfl⟩]) <|
    .member tight <| .cons [.code ⟨0x30, 0, rfl⟩ ⟨0x30, 0, rfl⟩ ⟨0x36, 6, rfl⟩ ⟨0x64, 13, rfl⟩]
      tight tight tight
      (.string [.plain 'a' rfl, .escape '/' '/' (by decide), .plain 'b' rfl]) <|
    .member tight <| .cons [.plain 'k' rfl] lines tight tight keyText <|
    .member tight <| .cons [.plain 't' rfl] tight tight tight .null <|
    .member tight <| .cons [.plain 'b' rfl] tight tight tight idText <|
    .closed space
  have spelled {bytes body : Bytes} {value : Json.Value}
      (document : Json.DenotesDocument bytes value) (same : bytes = body) :
      Json.DenotesDocument body value := same ▸ document
  refine ⟨?_, ?_, ?_⟩
  · have whole : decode file.encode = .ok file := decode_encode (by decide)
    have tells : file.record.Tells known :=
      @FileRecord.Tells.mk file.record [("t", .null)] [] [("d", .string (some "π"))] [] []
        .null .absent (.text "π") .absent .absent
    exact (decode_layout _).1 file known others _ whole tells (by decide) (List.reverse_perm _)
      (spelled (.mk tight (.object (.member written)) ending) (by decide +kernel))
  · have twice : Json.DenotesMember _ (.cons (some "j") (.number (some 0))
        (.cons (some "j") (.number (some 0)) (Json.Members.ofList (known ++ others).reverse))) :=
      .cons [.plain 'j' rfl] tight tight tight (.number (.natural 0)) <|
      .member tight <| .cons [.plain 'j' rfl] tight tight tight (.number (.natural 0)) <|
      .member tight written
    exact (decode_layout _).2.1 _ "j" (by decide) (by decide)
      (spelled (.mk tight (.object (.member twice)) ending) (by decide +kernel))
  · have unspelled : Json.DenotesMember _
        (.cons none (.number (some 0)) (Json.Members.ofList (known ++ others).reverse)) :=
      .cons [.code ⟨0x64, 13, rfl⟩ ⟨0x38, 8, rfl⟩ ⟨0x30, 0, rfl⟩ ⟨0x30, 0, rfl⟩] tight tight tight
        (.number (.natural 0)) <|
      .member tight written
    exact (decode_layout _).2.2 _ List.mem_cons_self
      (spelled (.mk tight (.object (.member unspelled)) ending) (by decide +kernel))

end File

end SealedEnvelope
