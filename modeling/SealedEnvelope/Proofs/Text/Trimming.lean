import SealedEnvelope.Text.Blank

/-!
# What trimming leaves

A text is made up of the blanks before it, a core that neither begins nor ends with a blank, and the
blanks after it, in one way only.  Trimming leaves the core, so that blanks around a text and
changes that keep blanks apart from other characters do not matter to it.
-/

set_option autoImplicit false

namespace SealedEnvelope

namespace Text

/-! ## Cores -/

/-- A text of blank characters, or of none at all. -/
def AllBlank (text : List Char) : Prop := ∀ c ∈ text, isBlank c = true

/-- The core of a text: all of it but the blank characters at its two ends. -/
structure IsCore (core text : List Char) : Prop where
  surrounded : ∃ front back, AllBlank front ∧ AllBlank back ∧ text = front ++ core ++ back
  first : ∀ c ∈ core.head?, isBlank c = false
  last : ∀ c ∈ core.getLast?, isBlank c = false

theorem allBlank_nil : AllBlank [] := fun _ mem => absurd mem List.not_mem_nil

theorem AllBlank.append {front back : List Char} (frontBlank : AllBlank front)
    (backBlank : AllBlank back) : AllBlank (front ++ back) := by
  intro c mem
  rcases List.mem_append.1 mem with mem | mem
  · exact frontBlank c mem
  · exact backBlank c mem

theorem AllBlank.reverse {text : List Char} (blank : AllBlank text) : AllBlank text.reverse :=
  fun c mem => blank c (List.mem_reverse.1 mem)

/-! ## One end at a time -/

/-- At the start all is dropped up to the first character that is not blank. -/
theorem trimStart_eq_iff {text rest : List Char} :
    trimStart text = rest
      ↔ (∃ front, AllBlank front ∧ text = front ++ rest) ∧ ∀ c ∈ rest.head?, isBlank c = false := by
  constructor
  · rintro rfl
    refine ⟨⟨text.takeWhile isBlank, ?_, List.takeWhile_append_dropWhile.symm⟩, ?_⟩
    · exact List.all_eq_true.1 List.all_takeWhile
    · intro c isFirst
      have stop := List.head?_dropWhile_not isBlank text
      rwa [show (text.dropWhile isBlank).head? = some c from isFirst] at stop
  · rintro ⟨⟨front, blank, rfl⟩, first⟩
    rw [trimStart, List.dropWhile_append_of_pos blank]
    cases rest with
    | nil => rfl
    | cons c rest => exact List.dropWhile_cons_of_neg (by simp [first c rfl])

/-- At the end all is dropped after the last character that is not blank. -/
theorem trimEnd_eq_iff {text rest : List Char} :
    trimEnd text = rest
      ↔ (∃ back, AllBlank back ∧ text = rest ++ back)
        ∧ ∀ c ∈ rest.getLast?, isBlank c = false := by
  have reversed : trimEnd text = rest ↔ trimStart text.reverse = rest.reverse := by
    rw [trimEnd, List.reverse_eq_iff]
    rfl
  rw [reversed, trimStart_eq_iff, List.head?_reverse]
  refine and_congr_left' ?_
  constructor
  · rintro ⟨front, blank, eq⟩
    refine ⟨front.reverse, blank.reverse, ?_⟩
    rw [← text.reverse_reverse, eq, List.reverse_append, List.reverse_reverse]
  · rintro ⟨back, blank, rfl⟩
    exact ⟨back.reverse, blank.reverse, List.reverse_append⟩

/-! ## Both ends -/

/-- Trimming leaves a core. -/
theorem isCore_trim (text : List Char) : IsCore (trim text) text := by
  obtain ⟨⟨front, frontBlank, start⟩, first⟩ := trimStart_eq_iff.1 (rfl : trimStart text = _)
  obtain ⟨⟨back, backBlank, rest⟩, last⟩ := trimEnd_eq_iff.1 (rfl : trimEnd (trimStart text) = _)
  refine ⟨⟨front, back, frontBlank, backBlank, ?_⟩, fun c isFirst => first c ?_, last⟩
  · rw [List.append_assoc]
    exact start.trans (congrArg (front ++ ·) rest)
  · rw [rest, List.head?_append]
    exact Option.or_eq_some_iff.2 (.inl isFirst)

/-- There is no other core than the one that trimming leaves. -/
theorem IsCore.trim_eq {core text : List Char} (h : IsCore core text) : trim text = core := by
  obtain ⟨⟨front, back, frontBlank, backBlank, rfl⟩, first, last⟩ := h
  by_cases empty : core = []
  · subst empty
    have nothing : trimStart (front ++ back) = [] :=
      trimStart_eq_iff.2 ⟨⟨_, frontBlank.append backBlank, (List.append_nil _).symm⟩, nofun⟩
    rw [List.append_nil, trim, nothing]
    rfl
  · have start : trimStart (front ++ core ++ back) = core ++ back := by
      refine trimStart_eq_iff.2 ⟨⟨front, frontBlank, List.append_assoc _ _ _⟩, ?_⟩
      obtain ⟨c, others, rfl⟩ := List.exists_cons_of_ne_nil empty
      exact first
    rw [trim, start]
    exact trimEnd_eq_iff.2 ⟨⟨back, backBlank, rfl⟩, last⟩

theorem isCore_iff {core text : List Char} : IsCore core text ↔ trim text = core :=
  ⟨IsCore.trim_eq, fun eq => eq ▸ isCore_trim text⟩

/-- A core is a core of itself. -/
theorem trim_trim (text : List Char) : trim (trim text) = trim text := by
  obtain ⟨_, first, last⟩ := isCore_trim text
  exact IsCore.trim_eq ⟨⟨[], [], allBlank_nil, allBlank_nil, by simp⟩, first, last⟩

/-- Blanks around a text leave its core as it is. -/
theorem trim_surround {front back : List Char} (frontBlank : AllBlank front)
    (backBlank : AllBlank back) (text : List Char) :
    trim (front ++ text ++ back) = trim text := by
  obtain ⟨⟨before, after, beforeBlank, afterBlank, eq⟩, first, last⟩ := isCore_trim text
  refine IsCore.trim_eq ⟨⟨front ++ before, after ++ back, frontBlank.append beforeBlank,
    afterBlank.append backBlank, ?_⟩, first, last⟩
  calc front ++ text ++ back
      = front ++ (before ++ trim text ++ after) ++ back := by rw [← eq]
    _ = front ++ before ++ trim text ++ (after ++ back) := by simp only [List.append_assoc]

/-- Nothing is left of blanks, and of nothing else. -/
theorem trim_eq_nil_iff {text : List Char} : trim text = [] ↔ AllBlank text := by
  rw [← isCore_iff]
  constructor
  · rintro ⟨⟨front, back, frontBlank, backBlank, rfl⟩, _, _⟩
    exact (frontBlank.append allBlank_nil).append backBlank
  · intro blank
    exact ⟨⟨text, [], blank, allBlank_nil, by simp⟩, nofun, nofun⟩

/-- A change of characters that keeps blanks apart from others may come before or after. -/
theorem trim_map {change : Char → Char} (same : ∀ c, isBlank (change c) = isBlank c)
    (text : List Char) : trim (text.map change) = (trim text).map change := by
  have composed : isBlank ∘ change = isBlank := funext same
  simp only [trim, trimStart, trimEnd, List.dropWhile_map, composed, ← List.map_reverse]

end Text

end SealedEnvelope
