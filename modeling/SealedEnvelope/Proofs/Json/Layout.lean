import SealedEnvelope.Proofs.Json.ReadBack

/-!
# Records in any order

The members of an object may stand in any order, and among others whose names the record does not
have.  In no order may one of its own names come twice, or a name spell no text.  A record is read
from no value that breaks off.
-/

set_option autoImplicit false

namespace SealedEnvelope

namespace Json

/-- The names of the members of an object, in their order. -/
def Members.keys : Members → List (Option String)
  | .closed => []
  | .broken => []
  | .cons key _ tail => key :: tail.keys

theorem Value.isComplete_of_isTextOrNull {value : Value} (h : value.isTextOrNull = true) :
    value.isComplete = true := by
  cases value with
  | null => rfl
  | string text => rfl
  | bool value => cases h
  | number natural => cases h
  | array items => cases h
  | object members => cases h
  | broken => cases h

theorem Value.isTextOrNull_of_isText {value : Value} (h : value.isText = true) :
    value.isTextOrNull = true := by
  cases value with
  | string text => exact h
  | null => rfl
  | bool value => cases h
  | number natural => cases h
  | array items => cases h
  | object members => cases h
  | broken => cases h

namespace Record

theorem find?_eq_none_iff {fields : List Field} {name : String} :
    fields.find? (fun field => field.name = name) = none ↔ name ∉ fields.map Field.name := by
  simp only [List.find?_eq_none, decide_eq_true_eq, List.mem_map, not_exists, not_and]

/-! ## Members in another order -/

theorem value?_eq_some_iff {record : Record} (distinct : (record.map Prod.fst).Nodup)
    {name : String} {value : Value} :
    record.value? name = some value ↔ (name, value) ∈ record := by
  induction record with
  | nil => simp [value?]
  | cons member record ih =>
    obtain ⟨key, other⟩ := member
    rw [List.map_cons, List.nodup_cons] at distinct
    rw [value?_cons, List.mem_cons, Prod.mk.injEq]
    by_cases same : name = key
    · subst same
      have alone : (name, value) ∉ record := by
        intro mem
        have again : name ∈ record.map Prod.fst := List.mem_map_of_mem mem
        exact distinct.1 again
      rw [if_pos rfl, Option.some.injEq]
      simp only [true_and, alone, or_false, eq_comm]
    · rw [if_neg same, ih distinct.2]
      simp only [same, false_and, false_or]

/-- The order of the members makes no difference to their values. -/
theorem value?_perm {left right : Record} (perm : left.Perm right)
    (distinct : (left.map Prod.fst).Nodup) (name : String) :
    left.value? name = right.value? name := by
  have distinct' : (right.map Prod.fst).Nodup := (perm.map Prod.fst).nodup_iff.1 distinct
  refine Option.ext fun value => ?_
  rw [value?_eq_some_iff distinct, value?_eq_some_iff distinct', perm.mem_iff]

theorem Admitted.perm {fields : List Field} {left right : Record} (admitted : Admitted fields left)
    (perm : left.Perm right) : Admitted fields right :=
  ⟨fun member mem => admitted.admits member (perm.mem_iff.2 mem),
    (perm.map Prod.fst).nodup_iff.1 admitted.distinct⟩

theorem Admitted.mem_names {fields : List Field} {members : Record}
    (admitted : Admitted fields members) {member : String × Value} (mem : member ∈ members) :
    member.1 ∈ fields.map Field.name := by
  obtain ⟨field, found, _⟩ := admitted.admits member mem
  have named : field.name = member.1 := by simpa using List.find?_some found
  exact List.mem_map.2 ⟨field, List.mem_of_find?_eq_some found, named⟩

/-! ## Members of other names -/

/-- The members whose names the record has. -/
def own (fields : List Field) (members : Record) : Record :=
  members.filter fun member => member.1 ∈ fields.map Field.name

/-- Members of names that the record does not have change nothing, if they can be read. -/
theorem ofMembers_filter {fields : List Field} {members : Record}
    (complete : (Members.ofList members).isComplete = true) (found : Record) :
    ofMembers fields found (Members.ofList members)
      = ofMembers fields found (Members.ofList (own fields members)) := by
  induction members generalizing found with
  | nil => rfl
  | cons member members ih =>
    obtain ⟨key, value⟩ := member
    obtain ⟨whole, rest⟩ := Bool.and_eq_true_iff.1 complete
    by_cases known : key ∈ fields.map Field.name
    · have kept : own fields ((key, value) :: members) = (key, value) :: own fields members :=
        List.filter_cons_of_pos (decide_eq_true known)
      rw [kept, Members.ofList, Members.ofList, ofMembers, ofMembers]
      cases find : fields.find? (fun field => field.name = key) with
      | none => exact absurd known (find?_eq_none_iff.1 find)
      | some field => simp only [ih rest]
    · have passed : own fields ((key, value) :: members) = own fields members :=
        List.filter_cons_of_neg (by simpa using known)
      rw [passed, ← ih rest, Members.ofList, ofMembers, find?_eq_none_iff.2 known]
      exact if_pos whole

theorem own_of_admitted {fields : List Field} {members : Record}
    (admitted : Admitted fields members) : own fields members = members :=
  List.filter_eq_self.2 fun _ mem => decide_eq_true (admitted.mem_names mem)

theorem own_of_unknown {fields : List Field} {members : Record}
    (unknown : ∀ member ∈ members, member.1 ∉ fields.map Field.name) : own fields members = [] :=
  List.filter_eq_nil_iff.2 fun member mem known => unknown member mem (of_decide_eq_true known)

/-- A record is read from its members in any order, with others among them. -/
theorem ofValue_of_perm {fields : List Field} {members known others : Record}
    (admitted : Admitted fields known)
    (unknown : ∀ member ∈ others, member.1 ∉ fields.map Field.name)
    (perm : members.Perm (known ++ others))
    (complete : (Members.ofList members).isComplete = true) :
    ∃ record, ofValue fields (.object (Members.ofList members)) = .ok record
      ∧ ∀ name, record.value? name = known.value? name := by
  have kept : (own fields members).Perm known := by
    have filtered := perm.filter fun member => member.1 ∈ fields.map Field.name
    rw [List.filter_append] at filtered
    change List.Perm (own fields members) (own fields known ++ own fields others) at filtered
    rwa [own_of_admitted admitted, own_of_unknown unknown, List.append_nil] at filtered
  have admitted' := admitted.perm kept.symm
  obtain ⟨record, eq, agrees⟩ := ofValue_object admitted'
  refine ⟨record, ?_, fun name => (agrees name).trans (value?_perm kept admitted'.distinct name)⟩
  rw [ofValue, ofMembers_filter complete]
  exact eq

/-! ## Names that come twice -/

/-- Of a name of the record there is one member at most, counting the fields already found. -/
theorem count_keys_le {fields : List Field} {name : String} (known : name ∈ fields.map Field.name)
    {found : Record} {members : Members} {record : Record}
    (h : ofMembers fields found members = .ok record) :
    members.keys.count (some name) + (if (found.value? name).isSome then 1 else 0) ≤ 1 := by
  fun_induction ofMembers fields found members with
  | case1 found =>
    rw [Members.keys, List.count_nil]
    split <;> omega
  | case2 => cases h
  | case3 => cases h
  | case4 found key value tail unknown complete ih =>
    have other : key ≠ name := by
      rintro rfl
      exact find?_eq_none_iff.1 unknown known
    rw [Members.keys, List.count_cons_of_ne (by simpa using other)]
    exact ih h
  | case5 => cases h
  | case6 => cases h
  | case7 found key value tail field _ fresh _ ih =>
    have counted := ih h
    rw [value?_cons] at counted
    rw [Members.keys]
    by_cases same : name = key
    · subst same
      rw [if_pos rfl, Option.isSome_some, if_pos rfl] at counted
      rw [List.count_cons_self, if_neg fresh]
      exact counted
    · rw [if_neg same] at counted
      rw [List.count_cons_of_ne (by simpa using Ne.symm same)]
      exact counted
  | case8 => cases h

/-- No record is read where one of its names comes twice. -/
theorem exists_error_of_count {fields : List Field} {name : String}
    (known : name ∈ fields.map Field.name) {members : Members}
    (twice : 2 ≤ members.keys.count (some name)) :
    ∃ fault, ofValue fields (.object members) = .error fault := by
  cases read : ofValue fields (.object members) with
  | error fault => exact ⟨fault, rfl⟩
  | ok record =>
    have counted := count_keys_le known read
    omega

/-! ## Names that spell no text -/

/-- Every member of an object that is read has a text for its name. -/
theorem none_not_mem_keys {fields : List Field} {found : Record} {members : Members}
    {record : Record} (h : ofMembers fields found members = .ok record) : none ∉ members.keys := by
  fun_induction ofMembers fields found members with
  | case1 => exact List.not_mem_nil
  | case2 => cases h
  | case3 => cases h
  | case4 found key value tail _ _ ih =>
    exact List.not_mem_cons_of_ne_of_not_mem (Option.some_ne_none key).symm (ih h)
  | case5 => cases h
  | case6 => cases h
  | case7 found key value tail _ _ _ _ ih =>
    exact List.not_mem_cons_of_ne_of_not_mem (Option.some_ne_none key).symm (ih h)
  | case8 => cases h

/-- No record is read where a name spells no text. -/
theorem exists_error_of_none {fields : List Field} {members : Members}
    (unspelled : none ∈ members.keys) :
    ∃ fault, ofValue fields (.object members) = .error fault := by
  cases read : ofValue fields (.object members) with
  | error fault => exact ⟨fault, rfl⟩
  | ok record => exact absurd unspelled (none_not_mem_keys read)

/-! ## Values that break off -/

section Whole

variable {fields : List Field}
  (whole : ∀ field ∈ fields, ∀ value, field.admits value = true → value.isComplete = true)

include whole

theorem isComplete_of_ofMembers {found : Record} {members : Members} {record : Record}
    (h : ofMembers fields found members = .ok record) : members.isComplete = true := by
  fun_induction ofMembers fields found members with
  | case1 => rfl
  | case2 => cases h
  | case3 => cases h
  | case4 found key value tail unknown complete ih =>
    exact Bool.and_eq_true_iff.2 ⟨complete, ih h⟩
  | case5 => cases h
  | case6 => cases h
  | case7 found key value tail field known _ admits ih =>
    have complete := whole field (List.mem_of_find?_eq_some known) value admits
    exact Bool.and_eq_true_iff.2 ⟨complete, ih h⟩
  | case8 => cases h

theorem isComplete_of_ofItems {items : Items} {record : Record}
    (h : ofItems fields items = .ok record) : items.isComplete = true := by
  fun_induction ofItems fields items generalizing record with
  | case1 => rfl
  | case2 => rfl
  | case3 => cases h
  | case4 field fields head tail admits others read ih =>
    have complete := whole field List.mem_cons_self head admits
    refine Bool.and_eq_true_iff.2 ⟨complete, ?_⟩
    exact ih (fun field mem => whole field (List.mem_cons_of_mem _ mem)) read
  | case5 => cases h
  | case6 => cases h
  | case7 => cases h

/-- A record is read from whole values only, if its fields admit no others. -/
theorem isComplete_of_ofValue {value : Value} {record : Record}
    (h : ofValue fields value = .ok record) : value.isComplete = true := by
  cases value with
  | object members => exact isComplete_of_ofMembers whole h
  | array items => exact isComplete_of_ofItems whole h
  | null => cases h
  | bool value => cases h
  | number natural => cases h
  | string text => cases h
  | broken => cases h

end Whole

end Record

end Json

end SealedEnvelope
