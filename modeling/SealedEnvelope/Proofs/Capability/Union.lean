import Mathlib.Data.List.Forall2
import SealedEnvelope.Capability
import SealedEnvelope.Proofs.Text.Trimming

/-!
# Lists of capabilities as sets (SPEC_FULL §10.3)

A list tells what its entries tell, each for itself: the capability that its core names, or nothing
if it is blank.  So two lists in one tell the union of what they tell, whatever the order of their
entries, the blanks around them and the number of times that an entry is there.
-/

set_option autoImplicit false

namespace SealedEnvelope

namespace Capability

theorem mem_all (capability : Capability) : capability ∈ all := by
  cases capability <;> decide

theorem ofName_name (capability : Capability) : ofName capability.name = capability := by
  cases capability <;> rfl

/-- A name tells no known capability exactly if it is the name of none. -/
theorem ofName_eq_unknown_iff {name : String} :
    ofName name = .unknown ↔ ∀ capability ∈ known, capability.name ≠ name := by
  unfold ofName
  cases found : known.find? fun capability => capability.name = name with
  | none =>
    simpa using found
  | some capability =>
    have named : capability.name = name := by simpa using List.find?_some found
    have mem := List.mem_of_find?_eq_some found
    constructor
    · rintro rfl
      exact absurd mem (by decide)
    · intro others
      exact absurd named (others capability mem)

/-- Names have no blanks at their ends and no commas. -/
theorem trim_name (capability : Capability) :
    Text.trim capability.name.toList = capability.name.toList := by
  cases capability <;> decide

theorem comma_not_mem_name (capability : Capability) : ',' ∉ capability.name.toList := by
  cases capability <;> decide

theorem name_ne_nil (capability : Capability) : capability.name.toList ≠ [] := by
  cases capability <;> decide

end Capability

namespace CapabilitySet

theorem has_ofList {capabilities : List Capability} {capability : Capability} :
    (ofList capabilities).has capability = true ↔ capability ∈ capabilities := by
  rw [ofList, List.contains_iff_mem]

theorem has_union {left right : CapabilitySet} {capability : Capability} :
    (left.union right).has capability = true
      ↔ left.has capability = true ∨ right.has capability = true := by
  rw [union, Bool.or_eq_true]

/-- A set is what it has. -/
theorem eq_iff {left right : CapabilitySet} :
    left = right ↔ ∀ capability, left.has capability = true ↔ right.has capability = true := by
  constructor
  · rintro rfl capability
    exact Iff.rfl
  · intro same
    exact ext fun capability => Bool.eq_iff_iff.2 (same capability)

theorem mem_toList {set : CapabilitySet} {capability : Capability} :
    capability ∈ set.toList ↔ set.has capability = true := by
  rw [toList, List.mem_filter]
  exact and_iff_right capability.mem_all

/-! ## Entries -/

/-- The list with the given entries. -/
def listOf (parts : List (List Char)) : String := String.ofList (Text.join ',' parts)

/-- An entry tells the capability that its core names; a blank one tells none. -/
def Tells (part : List Char) (capability : Capability) : Prop :=
  ∃ core, Text.IsCore core part ∧ core ≠ [] ∧ Capability.ofName (String.ofList core) = capability

/-- An entry with blanks put around it. -/
def Padded (part padded : List Char) : Prop :=
  ∃ front back, Text.AllBlank front ∧ Text.AllBlank back ∧ padded = front ++ part ++ back

variable {part : List Char} {parts : List (List Char)} {capability : Capability}

theorem tells_iff :
    Tells part capability
      ↔ Text.trim part ≠ [] ∧ Capability.ofName (String.ofList (Text.trim part)) = capability := by
  constructor
  · rintro ⟨core, isCore, told⟩
    rwa [isCore.trim_eq]
  · exact fun told => ⟨_, Text.isCore_trim part, told⟩

theorem not_tells_of_allBlank (blank : Text.AllBlank part) : ¬ Tells part capability := by
  rw [tells_iff]
  exact fun told => told.1 (Text.trim_eq_nil_iff.2 blank)

theorem Padded.tells_iff {padded : List Char} (h : Padded part padded) :
    Tells padded capability ↔ Tells part capability := by
  obtain ⟨front, back, frontBlank, backBlank, rfl⟩ := h
  simp only [CapabilitySet.tells_iff, Text.trim_surround frontBlank backBlank]

theorem tells_name {name : Capability} : Tells name.name.toList capability ↔ name = capability := by
  rw [tells_iff, name.trim_name, String.ofList_toList, name.ofName_name]
  exact and_iff_right name.name_ne_nil

theorem comma_not_mem_of_allBlank (blank : Text.AllBlank part) : ',' ∉ part := by
  intro mem
  cases blank ',' mem

theorem Padded.comma_not_mem {padded : List Char} (h : Padded part padded) (apart : ',' ∉ part) :
    ',' ∉ padded := by
  obtain ⟨front, back, frontBlank, backBlank, rfl⟩ := h
  simp only [List.mem_append, not_or]
  exact ⟨⟨comma_not_mem_of_allBlank frontBlank, apart⟩, comma_not_mem_of_allBlank backBlank⟩

/-! ## What a list tells -/

/-- A list tells what its entries tell. -/
theorem has_parse {list : String} :
    (parse list).has capability = true
      ↔ ∃ part ∈ Text.split ',' list.toList, Tells part capability := by
  rw [parse, has_ofList, entries]
  simp only [List.mem_map, List.mem_filter, exists_exists_and_eq_and, and_assoc, tells_iff,
    Bool.not_eq_true', List.isEmpty_eq_false_iff]

/-- Two lists in one tell what either of them does. -/
theorem parse_append (left right : String) :
    parse (left ++ "," ++ right) = (parse left).union (parse right) := by
  have chars : (left ++ "," ++ right).toList = left.toList ++ ',' :: right.toList :=
    Text.toList_append_separator ',' left right
  rw [eq_iff]
  intro capability
  rw [has_union, has_parse, has_parse, has_parse, chars, Text.split_append]
  simp only [List.mem_append, or_and_right, exists_or]

/-- Of entries that may be lists themselves each tells for itself. -/
theorem has_parse_listOf :
    (parse (listOf parts)).has capability = true
      ↔ ∃ part ∈ parts, (parse (String.ofList part)).has capability = true := by
  unfold listOf
  fun_induction Text.join ',' parts with
  | case1 => simp; rfl
  | case2 part => simp
  | case3 part next rest ih =>
    have cut : String.ofList (part ++ ',' :: Text.join ',' (next :: rest))
        = String.ofList part ++ "," ++ String.ofList (Text.join ',' (next :: rest)) :=
      Text.ofList_join_cons ',' part next rest
    rw [cut, parse_append, has_union, ih]
    simp only [List.mem_cons, exists_eq_or_imp]

theorem has_parse_listOf_of_apart (apart : ∀ part ∈ parts, ',' ∉ part) :
    (parse (listOf parts)).has capability = true ↔ ∃ part ∈ parts, Tells part capability := by
  rw [has_parse_listOf]
  refine exists_congr fun part => and_congr_right fun mem => ?_
  rw [has_parse, String.toList_ofList, Text.split_of_not_mem (apart part mem)]
  simp only [List.mem_singleton, exists_eq_left]

/-! ## Lists that tell the same -/

/-- Neither the order of entries nor their number makes a difference. -/
theorem parse_listOf_congr {others : List (List Char)} (same : ∀ part, part ∈ parts ↔ part ∈ others) :
    parse (listOf parts) = parse (listOf others) := by
  rw [eq_iff]
  intro capability
  simp only [has_parse_listOf, same]

/-- Blanks around entries make no difference. -/
theorem parse_listOf_padded {padded : List (List Char)} (apart : ∀ part ∈ parts, ',' ∉ part)
    (h : List.Forall₂ Padded parts padded) : parse (listOf padded) = parse (listOf parts) := by
  have apart' : ∀ part ∈ padded, ',' ∉ part := by
    induction h with
    | nil => exact fun _ mem => absurd mem List.not_mem_nil
    | cons first _ ih =>
      obtain ⟨apartFirst, apartRest⟩ := List.forall_mem_cons.1 apart
      exact List.forall_mem_cons.2 ⟨first.comma_not_mem apartFirst, ih apartRest⟩
  rw [eq_iff]
  intro capability
  rw [has_parse_listOf_of_apart apart, has_parse_listOf_of_apart apart']
  clear apart apart'
  -- entry by entry, since each tells for itself
  induction h with
  | nil => rfl
  | cons first _ ih => simp only [List.mem_cons, exists_eq_or_imp, first.tells_iff, ih]

/-- Blank entries make no difference. -/
theorem parse_listOf_blank {blank : List (List Char)} (all : ∀ part ∈ blank, Text.AllBlank part)
    (before after : List (List Char)) :
    parse (listOf (before ++ blank ++ after)) = parse (listOf (before ++ after)) := by
  have nothing (capability : Capability) :
      ¬ ∃ part ∈ blank, (parse (String.ofList part)).has capability = true := by
    rintro ⟨part, mem, told⟩
    have apart := comma_not_mem_of_allBlank (all part mem)
    rw [has_parse, String.toList_ofList, Text.split_of_not_mem apart] at told
    obtain ⟨only, isPart, told⟩ := told
    rw [List.mem_singleton.1 isPart] at told
    exact not_tells_of_allBlank (all part mem) told
  rw [eq_iff]
  intro capability
  rw [has_parse_listOf, has_parse_listOf]
  simp only [List.mem_append, or_and_right, exists_or, nothing, or_false]

/-- An entry that is not blank and names no known capability makes the set have the unknown one. -/
theorem has_unknown_parse {list : String} :
    (parse list).has .unknown = true
      ↔ ∃ part ∈ Text.split ',' list.toList, ∃ core, Text.IsCore core part ∧ core ≠ []
        ∧ ∀ known ∈ Capability.known, known.name.toList ≠ core := by
  have names (core : List Char) : Capability.ofName (String.ofList core) = .unknown
      ↔ ∀ known ∈ Capability.known, known.name.toList ≠ core := by
    rw [Capability.ofName_eq_unknown_iff]
    refine forall_congr' fun known => forall_congr' fun _ => not_congr ?_
    rw [← String.toList_inj, String.toList_ofList]
  rw [has_parse]
  simp only [Tells, names]

/-- A set is read from the names of its members. -/
theorem parse_listOf_names {set : CapabilitySet} {order : List Capability}
    (perm : order.Perm set.toList) :
    parse (listOf (order.map fun capability => capability.name.toList)) = set := by
  have apart : ∀ part ∈ order.map fun capability => capability.name.toList, ',' ∉ part := by
    intro part mem
    obtain ⟨capability, _, rfl⟩ := List.mem_map.1 mem
    exact capability.comma_not_mem_name
  rw [eq_iff]
  intro capability
  rw [has_parse_listOf_of_apart apart, ← mem_toList, ← perm.mem_iff]
  simp only [List.mem_map, exists_exists_and_eq_and, tells_name, exists_eq_right]

/-- Every text is the list of what stands between its commas, and two lists in one tell the union of
what they tell.  So a list of entries tells the same in any order and with any of them repeated,
with blanks put around them, and with blank ones put in anywhere; it tells an unknown capability
exactly if the core of some entry is neither empty nor one of the known names; and the names of the
members of a set, in any order, tell this set. -/
theorem parse_homomorphic :
    (∀ list : String, listOf (Text.split ',' list.toList) = list)
    ∧ (∀ left right : String, parse (left ++ "," ++ right) = (parse left).union (parse right))
    ∧ (∀ parts others : List (List Char), (∀ part, part ∈ parts ↔ part ∈ others) →
      parse (listOf parts) = parse (listOf others))
    ∧ (∀ parts padded : List (List Char), (∀ part ∈ parts, ',' ∉ part) →
      List.Forall₂ Padded parts padded → parse (listOf padded) = parse (listOf parts))
    ∧ (∀ before blank after : List (List Char), (∀ part ∈ blank, Text.AllBlank part) →
      parse (listOf (before ++ blank ++ after)) = parse (listOf (before ++ after)))
    ∧ (∀ list : String, (parse list).has .unknown = true
      ↔ ∃ part ∈ Text.split ',' list.toList, ∃ core, Text.IsCore core part ∧ core ≠ []
        ∧ ∀ known ∈ Capability.known, known.name.toList ≠ core)
    ∧ ∀ (set : CapabilitySet) (order : List Capability), order.Perm set.toList →
      parse (listOf (order.map fun capability => capability.name.toList)) = set := by
  refine ⟨fun list => ?_, parse_append, fun _ _ => parse_listOf_congr,
    fun _ _ => parse_listOf_padded, fun before blank after all => parse_listOf_blank all before after,
    fun _ => has_unknown_parse, fun _ _ => parse_listOf_names⟩
  rw [listOf, Text.join_split, String.ofList_toList]

/-- Names that begin or end alike, with a no-break space before one of them, an ideographic one after
another and a repeated one; a blank entry between two of them; a name in capital letters; and the
names of a set in an order of their own. -/
theorem parse_homomorphic_calls :
    let calls := ["videocall".toList, "call".toList, "groupcall".toList]
    let set : CapabilitySet := ofList [.group, .groupCall, .call, .unknown]
    parse (listOf ["\u00a0videocall".toList, "call".toList, "groupcall\u3000\n".toList])
        = parse (listOf calls)
      ∧ parse (listOf ["call".toList, "groupcall".toList, "videocall".toList, "call".toList])
        = parse (listOf calls)
      ∧ parse (listOf (["video".toList] ++ [[' ', '\t'], []] ++ ["call".toList]))
        = parse (listOf ["video".toList, "call".toList])
      ∧ (parse "video, CALL").has .unknown = true
      ∧ parse "groupcall,unknown,group,call" = set := by
  intro calls set
  obtain ⟨_, _, members, padded, blank, unknown, names⟩ := parse_homomorphic
  refine ⟨padded calls _ ?_ ?_, members _ calls ?_, blank _ _ _ ?_, ?_, ?_⟩
  · decide
  · refine .cons ⟨['\u00a0'], [], ?_, Text.allBlank_nil, rfl⟩ (.cons ⟨[], [], Text.allBlank_nil,
      Text.allBlank_nil, rfl⟩ (.cons ⟨[], ['\u3000', '\n'], Text.allBlank_nil, ?_, rfl⟩ .nil))
    · exact List.forall_mem_singleton.2 rfl
    · exact List.forall_mem_cons.2 ⟨rfl, List.forall_mem_singleton.2 rfl⟩
  · intro part
    simp only [calls, List.mem_cons, List.not_mem_nil, or_false]
    grind
  · refine List.forall_mem_cons.2 ⟨?_, List.forall_mem_singleton.2 Text.allBlank_nil⟩
    exact List.forall_mem_cons.2 ⟨rfl, List.forall_mem_singleton.2 rfl⟩
  · refine (unknown _).2 ⟨" CALL".toList, by decide, "CALL".toList, ?_, by decide, by decide⟩
    exact Text.isCore_iff.2 (by decide)
  · let order : List Capability := [.groupCall, .unknown, .group, .call]
    have text : "groupcall,unknown,group,call"
        = listOf (order.map fun capability => capability.name.toList) := by
      rw [← String.toList_inj, listOf, String.toList_ofList]
      decide
    rw [text]
    exact names set order (by decide)

end CapabilitySet

end SealedEnvelope
