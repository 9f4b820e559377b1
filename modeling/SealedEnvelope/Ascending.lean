/-!
# Ascending lists

Sets of ordered values as lists in ascending order without duplicates.  A set has one such list,
whatever the order in which its members were put in and however often each of them was.
-/

set_option autoImplicit false

namespace SealedEnvelope

namespace Ascending

variable {α : Type} [Ord α]

/-- The list with one more value in its place; a value that is there already is not added. -/
def insert (value : α) : List α → List α
  | [] => [value]
  | head :: tail =>
    match compare value head with
    | .lt => value :: head :: tail
    | .eq => head :: tail
    | .gt => head :: insert value tail

/-- The values of a list in ascending order, each once. -/
def ofList (values : List α) : List α := values.foldr insert []

/-- Whether each value of a list is less than all that come after it. -/
def IsAscending (values : List α) : Prop :=
  values.Pairwise fun left right => compare left right = .lt

/-! ## Members -/

variable [Std.LawfulEqOrd α] {value other : α} {values left right : List α}

theorem mem_insert : other ∈ insert value values ↔ other = value ∨ other ∈ values := by
  fun_induction insert value values with
  | case1 => rw [List.mem_singleton, or_iff_left List.not_mem_nil]
  | case2 head tail less => exact List.mem_cons
  | case3 head tail same =>
    rw [Std.LawfulEqOrd.eq_of_compare same, List.mem_cons, ← or_assoc, or_self]
  | case4 head tail more ih => rw [List.mem_cons, List.mem_cons, ih, or_left_comm]

/-- The members of the list that is made are those that it is made of. -/
theorem mem_ofList : value ∈ ofList values ↔ value ∈ values := by
  induction values with
  | nil => exact Iff.rfl
  | cons head tail ih => rw [ofList, List.foldr_cons, mem_insert, List.mem_cons, ← ih, ofList]

/-! ## Order -/

/-- A list that ascends has no value twice. -/
theorem IsAscending.nodup (h : IsAscending values) : values.Nodup := by
  refine List.Pairwise.imp (fun {low high} less => ?_) h
  rintro rfl
  have self : compare low low = .eq := Std.ReflCmp.compare_self
  rw [self] at less
  contradiction

variable [Std.TransOrd α]

theorem IsAscending.insert (h : IsAscending values) (value : α) :
    IsAscending (insert value values) := by
  fun_induction Ascending.insert value values with
  | case1 => exact List.pairwise_singleton _ _
  | case2 head tail less =>
    refine List.pairwise_cons.2 ⟨fun other mem => ?_, h⟩
    rcases List.mem_cons.1 mem with rfl | later
    · exact less
    · exact Std.TransCmp.lt_trans less (List.rel_of_pairwise_cons h later)
  | case3 head tail same => exact h
  | case4 head tail more ih =>
    obtain ⟨first, rest⟩ := List.pairwise_cons.1 h
    refine List.pairwise_cons.2 ⟨fun other mem => ?_, ih rest⟩
    rcases mem_insert.1 mem with rfl | later
    · exact Std.OrientedCmp.gt_iff_lt.1 more
    · exact first other later

/-- The list that is made ascends. -/
theorem isAscending_ofList (values : List α) : IsAscending (ofList values) := by
  induction values with
  | nil => exact List.Pairwise.nil
  | cons head tail ih => exact ih.insert head

/-- Lists that ascend are the same if they have the same members. -/
theorem IsAscending.eq_of_mem_iff (h : IsAscending left) (h' : IsAscending right)
    (same : ∀ value, value ∈ left ↔ value ∈ right) : left = right := by
  have perm : left.Perm right := (List.perm_ext_iff_of_nodup h.nodup h'.nodup).2 same
  refine perm.eq_of_pairwise (fun low high _ _ less more => ?_) h h'
  have greater : compare low high = .gt := Std.OrientedCmp.gt_iff_lt.2 more
  rw [greater] at less
  contradiction

/-- One list is made of all lists with the same members, and of no others. -/
theorem ofList_eq_iff : ofList left = ofList right ↔ ∀ value, value ∈ left ↔ value ∈ right := by
  constructor
  · intro same value
    rw [← mem_ofList, same, mem_ofList]
  · intro same
    refine (isAscending_ofList left).eq_of_mem_iff (isAscending_ofList right) fun value => ?_
    rw [mem_ofList, mem_ofList, same]

end Ascending

end SealedEnvelope
