/-!
# Splitting text

Text cut at every occurrence of a separator, and at the first one.  Cutting and joining are inverse
to each other as far as no part holds a separator.
-/

set_option autoImplicit false

namespace SealedEnvelope

namespace Text

/-- The parts between the separators: one more than there are separators. -/
def split (separator : Char) : List Char → List (List Char)
  | [] => [[]]
  | c :: rest =>
    if c = separator then [] :: split separator rest
    else
      match split separator rest with
      | [] => [[c]]
      | part :: parts => (c :: part) :: parts

/-- The parts with one separator between each two. -/
def join (separator : Char) : List (List Char) → List Char
  | [] => []
  | [part] => part
  | part :: next :: rest => part ++ separator :: join separator (next :: rest)

/-- The text before the first separator and the text after it. -/
def splitFirst? (separator : Char) : List Char → Option (List Char × List Char)
  | [] => none
  | c :: rest =>
    if c = separator then some ([], rest)
    else (splitFirst? separator rest).map fun (before, after) => (c :: before, after)

/-- The text after `start`, if the text starts so. -/
def dropStart? (start text : List Char) : Option (List Char) :=
  match start, text with
  | [], text => some text
  | _ :: _, [] => none
  | s :: start, c :: text => if s = c then dropStart? start text else none

theorem split_ne_nil (separator : Char) (text : List Char) : split separator text ≠ [] := by
  cases text with
  | nil => simp [split]
  | cons c rest =>
    simp only [split]
    split
    · simp
    · split <;> simp

/-! ## Splitting and joining -/

/-- A separator between two texts cuts them apart, whatever they hold. -/
theorem split_append (separator : Char) (left right : List Char) :
    split separator (left ++ separator :: right)
      = split separator left ++ split separator right := by
  induction left with
  | nil => simp [split]
  | cons c left ih =>
    simp only [List.cons_append, split, ih]
    split
    · rfl
    · cases h : split separator left with
      | nil => exact absurd h (split_ne_nil separator left)
      | cons part parts => rfl

/-- There is one part more than there are separators. -/
theorem length_split (separator : Char) (text : List Char) :
    (split separator text).length = text.count separator + 1 := by
  induction text with
  | nil => rfl
  | cons c rest ih =>
    by_cases isSeparator : c = separator
    · subst isSeparator
      rw [split, if_pos rfl, List.length_cons, ih, List.count_cons_self]
    · rw [split, if_neg isSeparator, List.count_cons_of_ne isSeparator, ← ih]
      cases h : split separator rest with
      | nil => exact absurd h (split_ne_nil separator rest)
      | cons part parts => rfl

/-- The first part is what stands before the first separator. -/
theorem head?_split (separator : Char) (text : List Char) :
    (split separator text).head? = some (text.takeWhile (· ≠ separator)) := by
  induction text with
  | nil => rfl
  | cons c rest ih =>
    by_cases isSeparator : c = separator
    · simp [split, isSeparator]
    · obtain ⟨parts, cut⟩ := List.head?_eq_some_iff.1 ih
      simp [split, isSeparator, cut]

theorem split_of_not_mem {separator : Char} {text : List Char} (h : separator ∉ text) :
    split separator text = [text] := by
  induction text with
  | nil => rfl
  | cons c rest ih =>
    simp only [List.mem_cons, not_or] at h
    simp [split, Ne.symm h.1, ih h.2]

/-- Parts without separators are read back from their join. -/
theorem split_join {separator : Char} {parts : List (List Char)} (ne : parts ≠ [])
    (h : ∀ part ∈ parts, separator ∉ part) : split separator (join separator parts) = parts := by
  fun_induction join separator parts with
  | case1 => contradiction
  | case2 part => exact split_of_not_mem (h part (by simp))
  | case3 part next rest ih =>
    rw [split_append, ih (by simp) (fun p hp => h p (by simp [hp])),
      split_of_not_mem (h part (by simp))]
    rfl

theorem join_append_singleton {separator : Char} {parts : List (List Char)} (ne : parts ≠ [])
    (last : List Char) :
    join separator (parts ++ [last]) = join separator parts ++ separator :: last := by
  fun_induction join separator parts with
  | case1 => contradiction
  | case2 part => rfl
  | case3 part next rest ih =>
    calc join separator (part :: next :: rest ++ [last])
        = part ++ separator :: join separator (next :: rest ++ [last]) := rfl
      _ = part ++ separator :: (join separator (next :: rest) ++ separator :: last) := by
        rw [ih (List.cons_ne_nil next rest)]
      _ = part ++ separator :: join separator (next :: rest) ++ separator :: last :=
        (List.append_assoc part (separator :: join separator (next :: rest)) _).symm

theorem join_ne_nil {separator : Char} {parts : List (List Char)} {part : List Char}
    (mem : part ∈ parts) (ne : part ≠ []) : join separator parts ≠ [] := by
  fun_induction join separator parts with
  | case1 => contradiction
  | case2 only => exact List.mem_singleton.1 mem ▸ ne
  | case3 => simp

/-- A join holds the characters of its parts, and separators. -/
theorem eq_or_exists_of_mem_join {separator c : Char} {parts : List (List Char)}
    (h : c ∈ join separator parts) : c = separator ∨ ∃ part ∈ parts, c ∈ part := by
  fun_induction join separator parts with
  | case1 => contradiction
  | case2 part => exact Or.inr ⟨part, List.mem_singleton_self part, h⟩
  | case3 part next rest ih =>
    rcases List.mem_append.1 h with inPart | inRest
    · exact Or.inr ⟨part, List.mem_cons_self, inPart⟩
    · rcases List.mem_cons.1 inRest with isSeparator | inRest
      · exact Or.inl isSeparator
      · rcases ih inRest with isSeparator | ⟨found, mem, inFound⟩
        · exact Or.inl isSeparator
        · exact Or.inr ⟨found, List.mem_cons_of_mem part mem, inFound⟩

theorem mem_join_of_mem {separator c : Char} {parts : List (List Char)} {part : List Char}
    (mem : part ∈ parts) (h : c ∈ part) : c ∈ join separator parts := by
  fun_induction join separator parts with
  | case1 => contradiction
  | case2 only => exact List.mem_singleton.1 mem ▸ h
  | case3 first next rest ih =>
    rcases List.mem_cons.1 mem with rfl | mem
    · exact List.mem_append_left _ h
    · exact List.mem_append_right _ (List.mem_cons_of_mem separator (ih mem))

theorem not_mem_of_mem_split {separator : Char} {text part : List Char}
    (h : part ∈ split separator text) : separator ∉ part := by
  induction text generalizing part with
  | nil => simp [split] at h; simp [h]
  | cons c rest ih =>
    simp only [split] at h
    split at h
    · rcases List.mem_cons.1 h with rfl | h
      · simp
      · exact ih h
    · rename_i hc
      split at h
      · simp at h; subst h; simpa using Ne.symm hc
      · rename_i head tail eq
        rw [eq] at ih
        rcases List.mem_cons.1 h with rfl | h
        · have := @ih head (by simp)
          simp [Ne.symm hc, this]
        · exact ih (by simp [h])

/-- The parts of a text, joined, are the text. -/
theorem join_split (separator : Char) (text : List Char) :
    join separator (split separator text) = text := by
  induction text with
  | nil => rfl
  | cons c rest ih =>
    simp only [split]
    cases h : split separator rest with
    | nil => exact absurd h (split_ne_nil separator rest)
    | cons part parts =>
      rw [h] at ih
      split
      · rename_i hc
        simp [join, ih, hc]
      · cases parts with
        | nil => simp_all [join]
        | cons next parts => simp_all [join]

/-! ## Texts with a separator between them -/

theorem toList_append_separator (separator : Char) (left right : String) :
    (left ++ String.singleton separator ++ right).toList
      = left.toList ++ separator :: right.toList := by
  rw [String.toList_append, String.toList_append, String.toList_singleton, List.append_assoc]
  rfl

/-- A join is its first part, a separator, and the join of the others. -/
theorem ofList_join_cons (separator : Char) (part next : List Char) (rest : List (List Char)) :
    String.ofList (join separator (part :: next :: rest))
      = String.ofList part ++ String.singleton separator
        ++ String.ofList (join separator (next :: rest)) := by
  apply String.toList_injective
  rw [toList_append_separator, String.toList_ofList, String.toList_ofList, String.toList_ofList]
  rfl

/-! ## Cutting at the first separator -/

/-- A text is cut at the separator that has none before it. -/
theorem splitFirst?_eq_some {separator : Char} {text before after : List Char} :
    splitFirst? separator text = some (before, after)
      ↔ text = before ++ separator :: after ∧ separator ∉ before := by
  induction text generalizing before with
  | nil => simp [splitFirst?]
  | cons c rest ih =>
    by_cases isSeparator : c = separator
    · subst isSeparator
      cases before with
      | nil => simp [splitFirst?, eq_comm]
      | cons b before => simp +contextual [splitFirst?]
    · cases before with
      | nil => simp [splitFirst?, isSeparator]
      | cons b before =>
        simp only [splitFirst?, if_neg isSeparator, Option.map_eq_some_iff, Prod.exists,
          Prod.mk.injEq, List.cons.injEq, List.cons_append, List.mem_cons, not_or]
        constructor
        · rintro ⟨_, _, cut, ⟨rfl, rfl⟩, rfl⟩
          obtain ⟨rfl, absent⟩ := ih.1 cut
          exact ⟨⟨rfl, rfl⟩, Ne.symm isSeparator, absent⟩
        · rintro ⟨⟨rfl, rfl⟩, _, absent⟩
          exact ⟨_, _, ih.2 ⟨rfl, absent⟩, ⟨rfl, rfl⟩, rfl⟩

theorem dropStart?_eq_some {start text rest : List Char} :
    dropStart? start text = some rest ↔ text = start ++ rest := by
  induction start generalizing text with
  | nil => simp [dropStart?]
  | cons s start ih =>
    cases text with
    | nil => simp [dropStart?]
    | cons c text =>
      by_cases same : s = c
      · simp [dropStart?, same, ih]
      · simp [dropStart?, same, Ne.symm same]

end Text

end SealedEnvelope
