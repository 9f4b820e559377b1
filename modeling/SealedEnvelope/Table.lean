/-!
# Tables

A finite map as the list of its entries, each key once, in the order in which the keys came.
-/

set_option autoImplicit false

namespace SealedEnvelope

/-- A finite map. -/
structure Table (κ ν : Type) where
  entries : List (κ × ν)
  deriving DecidableEq, Repr, Inhabited

namespace Table

variable {κ ν : Type}

/-- The map without entries. -/
def empty : Table κ ν := ⟨[]⟩

/-- The entries with `value` at `key`. -/
def insertEntry [DecidableEq κ] (key : κ) (value : ν) : List (κ × ν) → List (κ × ν)
  | [] => [(key, value)]
  | (k, v) :: rest => if k = key then (key, value) :: rest else (k, v) :: insertEntry key value rest

/-- The value at a key among entries. -/
def findEntry [DecidableEq κ] (key : κ) : List (κ × ν) → Option ν
  | [] => none
  | (k, v) :: rest => if k = key then some v else findEntry key rest

/-- The map with `value` at `key` and all else as before. -/
def insert [DecidableEq κ] (table : Table κ ν) (key : κ) (value : ν) : Table κ ν :=
  ⟨insertEntry key value table.entries⟩

/-- The value at a key. -/
def get? [DecidableEq κ] (table : Table κ ν) (key : κ) : Option ν := findEntry key table.entries

/-- The map with the given entries added in turn. -/
def insertMany [DecidableEq κ] (table : Table κ ν) (entries : List (κ × ν)) : Table κ ν :=
  entries.foldl (fun table entry => table.insert entry.1 entry.2) table

/-- The map with the given entries, of which the last one at a key counts. -/
def ofList [DecidableEq κ] (entries : List (κ × ν)) : Table κ ν := empty.insertMany entries

@[simp] theorem get?_empty [DecidableEq κ] (key : κ) : (empty : Table κ ν).get? key = none := rfl

theorem findEntry_insertEntry [DecidableEq κ] (key : κ) (value : ν) (entries : List (κ × ν))
    (k : κ) :
    findEntry k (insertEntry key value entries)
      = if key = k then some value else findEntry k entries := by
  induction entries with
  | nil => simp [insertEntry, findEntry]
  | cons entry rest ih =>
    obtain ⟨k', v⟩ := entry
    by_cases hk : k' = key
    · subst hk
      by_cases h : k' = k <;> simp [insertEntry, findEntry, h]
    · by_cases h : k' = k
      · subst h
        simp [insertEntry, findEntry, hk, Ne.symm hk]
      · simp [insertEntry, findEntry, hk, h, ih]

/-- An insertion is seen at its own key and nowhere else. -/
@[simp] theorem get?_insert [DecidableEq κ] (table : Table κ ν) (key : κ) (value : ν) (k : κ) :
    (table.insert key value).get? k = if key = k then some value else table.get? k :=
  findEntry_insertEntry key value table.entries k

/-- The last entry at a key counts, and the map as it was before if there is none. -/
theorem get?_insertMany [DecidableEq κ] (table : Table κ ν) (entries : List (κ × ν)) (key : κ) :
    (table.insertMany entries).get? key
      = ((entries.reverse.find? fun entry => entry.1 = key).map Prod.snd).or (table.get? key) := by
  induction entries generalizing table with
  | nil => simp [insertMany]
  | cons entry rest ih =>
    have step : table.insertMany (entry :: rest)
        = (table.insert entry.1 entry.2).insertMany rest := rfl
    rw [step, ih, get?_insert, List.reverse_cons, List.find?_append]
    cases rest.reverse.find? fun entry => entry.1 = key with
    | some found => rfl
    | none =>
      by_cases h : entry.1 = key <;> simp [h]

/-- What is found at a key depends on the entries with the key alone. -/
theorem get?_ofList_eq_getLast? [DecidableEq κ] (entries : List (κ × ν)) (key : κ) :
    (ofList entries).get? key
      = ((entries.filter fun entry => entry.1 = key).getLast?).map Prod.snd := by
  rw [ofList, get?_insertMany, get?_empty, Option.or_none, ← List.head?_filter,
    List.filter_reverse, List.head?_reverse]

/-- Of two lists of entries the second one counts first. -/
theorem get?_ofList_append [DecidableEq κ] (first others : List (κ × ν)) (key : κ) :
    (ofList (first ++ others)).get? key
      = ((ofList others).get? key).or ((ofList first).get? key) := by
  have inTurn : ofList (first ++ others) = (ofList first).insertMany others := List.foldl_append
  have alone : (ofList others).get? key
      = (others.reverse.find? fun entry => entry.1 = key).map Prod.snd := by
    rw [ofList, get?_insertMany, get?_empty, Option.or_none]
  rw [inTurn, get?_insertMany, alone]

/-! ## Entries with distinct keys -/

theorem eq_of_mem_of_nodup {entries : List (κ × ν)} (nodup : (entries.map Prod.fst).Nodup)
    {key : κ} {left right : ν} (leftMem : (key, left) ∈ entries)
    (rightMem : (key, right) ∈ entries) : left = right := by
  induction entries with
  | nil => contradiction
  | cons entry rest ih =>
    rw [List.map_cons, List.nodup_cons] at nodup
    obtain ⟨fresh, nodup⟩ := nodup
    have elsewhere {value : ν} (mem : (entry.1, value) ∈ rest) : False :=
      fresh (List.mem_map.2 ⟨_, mem, rfl⟩)
    rcases List.mem_cons.1 leftMem with rfl | leftRest
    · rcases List.mem_cons.1 rightMem with same | rightRest
      · exact (congrArg Prod.snd same).symm
      · exact (elsewhere rightRest).elim
    · rcases List.mem_cons.1 rightMem with rfl | rightRest
      · exact (elsewhere leftRest).elim
      · exact ih nodup leftRest rightRest

/-- An entry is found wherever it stands, if no other one has its key. -/
theorem get?_ofList_of_mem [DecidableEq κ] {entries : List (κ × ν)}
    (nodup : (entries.map Prod.fst).Nodup) {key : κ} {value : ν} (mem : (key, value) ∈ entries) :
    (ofList entries).get? key = some value := by
  rw [ofList, get?_insertMany]
  cases h : entries.reverse.find? fun entry => entry.1 = key with
  | none =>
    have missed := List.find?_eq_none.1 h (key, value) (List.mem_reverse.2 mem)
    exact absurd (decide_eq_true rfl) missed
  | some found =>
    obtain ⟨foundKey, foundValue⟩ := found
    have test := List.find?_some h
    obtain rfl : foundKey = key := of_decide_eq_true test
    have foundMem := List.mem_reverse.1 (List.mem_of_find?_eq_some h)
    rw [eq_of_mem_of_nodup nodup mem foundMem]
    rfl

theorem get?_ofList_of_not_mem [DecidableEq κ] {entries : List (κ × ν)} {key : κ}
    (h : key ∉ entries.map Prod.fst) : (ofList entries).get? key = none := by
  have missed : (entries.reverse.find? fun entry => entry.1 = key) = none := by
    refine List.find?_eq_none.2 fun entry mem same => h ?_
    rw [← of_decide_eq_true same]
    exact List.mem_map_of_mem (List.mem_reverse.1 mem)
  rw [ofList, get?_insertMany, missed]
  rfl

theorem get?_ofList_eq_none [DecidableEq κ] {entries : List (κ × ν)} {key : κ} :
    (ofList entries).get? key = none ↔ key ∉ entries.map Prod.fst := by
  refine ⟨fun missed isKey => ?_, get?_ofList_of_not_mem⟩
  obtain ⟨entry, mem, rfl⟩ := List.mem_map.1 isKey
  rw [ofList, get?_insertMany, get?_empty, Option.or_none, Option.map_eq_none_iff] at missed
  exact List.find?_eq_none.1 missed entry (List.mem_reverse.2 mem) (decide_eq_true rfl)

/-! ## The entries of a map -/

/-- The value at a key is that of the last entry with the key. -/
theorem get?_ofList_eq_some [DecidableEq κ] {entries : List (κ × ν)} {key : κ} {value : ν} :
    (ofList entries).get? key = some value
      ↔ ∃ before after, entries = before ++ (key, value) :: after ∧ key ∉ after.map Prod.fst := by
  rw [ofList, get?_insertMany, get?_empty, Option.or_none, Option.map_eq_some_iff]
  simp only [List.find?_eq_some_iff_append]
  constructor
  · rintro ⟨⟨_, _⟩, ⟨isKey, later, earlier, cut, others⟩, rfl⟩
    obtain rfl := of_decide_eq_true isKey
    refine ⟨earlier.reverse, later.reverse, ?_, ?_⟩
    · rw [← List.reverse_reverse entries, cut, List.reverse_append, List.reverse_cons,
        List.append_assoc, List.singleton_append]
    · intro mem
      obtain ⟨entry, inLater, same⟩ := List.mem_map.1 mem
      have other := others entry (List.mem_reverse.1 inLater)
      simp [same] at other
  · rintro ⟨before, after, rfl, last⟩
    refine ⟨(key, value), ⟨decide_eq_true rfl, after.reverse, before.reverse, ?_, ?_⟩, rfl⟩
    · rw [List.reverse_append, List.reverse_cons, List.append_assoc, List.singleton_append]
    · intro entry mem
      have other : entry.1 ≠ key := fun same =>
        last (List.mem_map.2 ⟨entry, List.mem_reverse.1 mem, same⟩)
      simp [other]

theorem mem_of_get?_ofList [DecidableEq κ] {entries : List (κ × ν)} {key : κ} {value : ν}
    (h : (ofList entries).get? key = some value) : (key, value) ∈ entries := by
  obtain ⟨before, after, rfl, _⟩ := get?_ofList_eq_some.1 h
  simp

theorem not_mem_insertEntry [DecidableEq κ] {key other : κ} {value : ν} {entries : List (κ × ν)}
    (ne : key ≠ other) (h : other ∉ entries.map Prod.fst) :
    other ∉ (insertEntry key value entries).map Prod.fst := by
  induction entries with
  | nil => simpa [insertEntry] using Ne.symm ne
  | cons entry rest ih =>
    obtain ⟨k, v⟩ := entry
    simp only [List.map_cons, List.mem_cons, not_or] at h
    by_cases same : k = key
    · simp [insertEntry, same, Ne.symm ne, h.2]
    · simp [insertEntry, same, h.1, ih h.2]

/-- An insertion brings no key a second time. -/
theorem nodup_insertEntry [DecidableEq κ] {key : κ} {value : ν} {entries : List (κ × ν)}
    (nodup : (entries.map Prod.fst).Nodup) :
    ((insertEntry key value entries).map Prod.fst).Nodup := by
  induction entries with
  | nil => simp [insertEntry]
  | cons entry rest ih =>
    obtain ⟨k, v⟩ := entry
    obtain ⟨fresh, nodup⟩ := List.nodup_cons.1 nodup
    by_cases same : k = key
    · subst same
      rw [insertEntry, if_pos rfl]
      exact List.nodup_cons.2 ⟨fresh, nodup⟩
    · rw [insertEntry, if_neg same]
      exact List.nodup_cons.2 ⟨not_mem_insertEntry (Ne.symm same) fresh, ih nodup⟩

/-- Each key is once in a map. -/
theorem nodup_insertMany [DecidableEq κ] {table : Table κ ν} (entries : List (κ × ν))
    (nodup : (table.entries.map Prod.fst).Nodup) :
    ((table.insertMany entries).entries.map Prod.fst).Nodup := by
  induction entries generalizing table with
  | nil => exact nodup
  | cons entry rest ih => exact ih (nodup_insertEntry nodup)

theorem nodup_ofList [DecidableEq κ] (entries : List (κ × ν)) :
    ((ofList entries).entries.map Prod.fst).Nodup :=
  nodup_insertMany entries List.nodup_nil

theorem findEntry_eq_some [DecidableEq κ] {entries : List (κ × ν)}
    (nodup : (entries.map Prod.fst).Nodup) {key : κ} {value : ν} :
    findEntry key entries = some value ↔ (key, value) ∈ entries := by
  induction entries with
  | nil => simp [findEntry]
  | cons entry rest ih =>
    obtain ⟨k, v⟩ := entry
    obtain ⟨fresh, nodup⟩ := List.nodup_cons.1 nodup
    by_cases same : k = key
    · subst same
      have elsewhere : (k, value) ∉ rest := fun mem => fresh (List.mem_map.2 ⟨_, mem, rfl⟩)
      simp [findEntry, elsewhere, eq_comm]
    · simp [findEntry, same, Ne.symm same, ih nodup]

/-- The entries of a map are what is found in it. -/
theorem mem_entries_ofList [DecidableEq κ] {entries : List (κ × ν)} {key : κ} {value : ν} :
    (key, value) ∈ (ofList entries).entries ↔ (ofList entries).get? key = some value :=
  (findEntry_eq_some (nodup_ofList entries)).symm

/-- The keys of a map are those of the entries that it was made of. -/
theorem mem_keys_ofList [DecidableEq κ] {entries : List (κ × ν)} {key : κ} :
    key ∈ (ofList entries).entries.map Prod.fst ↔ key ∈ entries.map Prod.fst := by
  constructor
  · intro isKey
    obtain ⟨⟨key, value⟩, mem, rfl⟩ := List.mem_map.1 isKey
    exact List.mem_map_of_mem (mem_of_get?_ofList (mem_entries_ofList.1 mem))
  · intro isKey
    cases got : (ofList entries).get? key with
    | none => exact absurd isKey (get?_ofList_eq_none.1 got)
    | some value => exact List.mem_map_of_mem (mem_entries_ofList.2 got)

end Table

end SealedEnvelope
