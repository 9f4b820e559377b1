import SealedEnvelope.Proofs.Form.ReadBack

/-!
# Bodies in segments

A body is what stands between its `&`, and each of these segments is a pair or is passed over.  What
is found at a key depends on the segments with that key alone, in their order; segments with other
keys, and those that are no pairs, may stand anywhere among them.
-/

set_option autoImplicit false

namespace SealedEnvelope

namespace Form

/-! ## Segments -/

/-- What stands between the `&` of a body. -/
def segments (body : String) : List (List Char) := Text.split '&' body.toList

/-- The body of segments. -/
def ofSegments (segments : List (List Char)) : String := String.ofList (Text.join '&' segments)

/-- The key of a segment that is a pair. -/
def key? (segment : List Char) : Option String := (decodePair? segment).map Prod.fst

/-- Every body is the body of its segments. -/
theorem ofSegments_segments (body : String) : ofSegments (segments body) = body := by
  rw [ofSegments, segments, Text.join_split, String.ofList_toList]

theorem segments_append (left right : String) :
    segments (left ++ "&" ++ right) = segments left ++ segments right := by
  have chars : (left ++ "&" ++ right).toList = left.toList ++ '&' :: right.toList :=
    Text.toList_append_separator '&' left right
  rw [segments, chars, Text.split_append]
  rfl

theorem pairs_append (left right : String) :
    pairs (left ++ "&" ++ right) = pairs left ++ pairs right := by
  have cut := congrArg (List.filterMap decodePair?) (segments_append left right)
  rwa [List.filterMap_append] at cut

/-- Of two bodies in one the second one counts first. -/
theorem get?_decode_append (left right : String) (key : String) :
    (decode (left ++ "&" ++ right)).get? key
      = ((decode right).get? key).or ((decode left).get? key) := by
  rw [decode, pairs_append]
  exact Table.get?_ofList_append (pairs left) (pairs right) key

/-- A segment is a pair exactly if there is one `=` in it. -/
theorem key?_eq_none_iff {segment : List Char} : key? segment = none ↔ segment.count '=' ≠ 1 := by
  have parts := Text.length_split '=' segment
  unfold key? decodePair?
  split
  · rename_i key value halves
    have one : segment.count '=' = 1 := Nat.succ.inj (parts.symm.trans (congrArg _ halves))
    exact ⟨nofun, fun other => absurd one other⟩
  · rename_i others
    refine ⟨fun _ one => ?_, fun _ => rfl⟩
    rw [one] at parts
    match halves : Text.split '=' segment, parts with
    | [key, value], _ => exact others key value halves

/-- The keys of written pairs. -/
theorem filterMap_key?_segment (pairs : List (String × String)) :
    (pairs.map segment).filterMap key? = pairs.map Prod.fst := by
  have each : key? ∘ segment = some ∘ Prod.fst := by
    refine funext fun pair => ?_
    rw [Function.comp_apply, key?, decodePair?_segment]
    rfl
  rw [List.filterMap_map, each, List.filterMap_eq_map]

/-! ## The segments with a key -/

/-- The segments of a body with a key, in their order. -/
def named (key : String) (body : String) : List (List Char) :=
  (segments body).filter fun segment => key? segment = some key

theorem named_append (key left right : String) :
    named key (left ++ "&" ++ right) = named key left ++ named key right := by
  rw [named, segments_append, List.filter_append]
  rfl

/-- What is found at a key depends on the segments with the key alone. -/
theorem get?_decode_eq (body key : String) :
    (decode body).get? key
      = (((named key body).filterMap decodePair?).getLast?).map Prod.snd := by
  have entries : (pairs body).filter (fun entry => entry.1 = key)
      = (named key body).filterMap decodePair? := by
    rw [named, pairs, segments, List.filter_filterMap, List.filterMap_filter]
    refine congrArg (List.filterMap · _) (funext fun segment => ?_)
    unfold key?
    cases decodePair? segment with
    | none => rfl
    | some entry => simp [Option.filter]
  rw [decode, Table.get?_ofList_eq_getLast?, entries]

theorem get?_decode_congr {left right key : String} (same : named key left = named key right) :
    (decode left).get? key = (decode right).get? key := by
  rw [get?_decode_eq, get?_decode_eq, same]

/-- The segments with a key are those of the parts of a body, whatever the parts are. -/
theorem named_ofSegments (key : String) (parts : List (List Char)) :
    named key (ofSegments parts) = parts.flatMap fun part => named key (String.ofList part) := by
  unfold ofSegments
  fun_induction Text.join '&' parts with
  | case1 => rfl
  | case2 part => rw [List.flatMap_cons, List.flatMap_nil, List.append_nil]
  | case3 part next rest ih =>
    have cut : String.ofList (part ++ '&' :: Text.join '&' (next :: rest))
        = String.ofList part ++ "&" ++ String.ofList (Text.join '&' (next :: rest)) :=
      Text.ofList_join_cons '&' part next rest
    rw [cut, named_append, ih]
    rfl

theorem named_ofSegments_append (key : String) (left right : List (List Char)) :
    named key (ofSegments (left ++ right))
      = named key (ofSegments left) ++ named key (ofSegments right) := by
  simp only [named_ofSegments, List.flatMap_append]

/-- Parts without `&` are segments themselves. -/
theorem named_ofSegments_of_apart {key : String} {parts : List (List Char)}
    (apart : ∀ part ∈ parts, '&' ∉ part) :
    named key (ofSegments parts) = parts.filter fun part => key? part = some key := by
  rw [named_ofSegments]
  induction parts with
  | nil => rfl
  | cons part parts ih =>
    obtain ⟨first, others⟩ := List.forall_mem_cons.1 apart
    have alone : segments (String.ofList part) = [part] := by
      rw [segments, String.toList_ofList, Text.split_of_not_mem first]
    rw [List.flatMap_cons, ih others, named, alone]
    rw [← List.filter_append, List.singleton_append]

/-! ## Segments in another order -/

/-- A permutation of segments with different keys leaves those with any one key as they are: there
is at most one. -/
theorem filter_key?_eq_of_perm {parts others : List (List Char)} (perm : parts.Perm others)
    (distinct : (parts.filterMap key?).Nodup) (key : String) :
    parts.filter (fun part => key? part = some key)
      = others.filter (fun part => key? part = some key) := by
  have kept := perm.filter fun part => decide (key? part = some key)
  have few : (parts.filter fun part => key? part = some key).length ≤ 1 := by
    calc (parts.filter fun part => key? part = some key).length
        = (parts.filterMap key?).count key := by
          rw [List.count_filterMap, List.countP_eq_length_filter]
          refine congrArg List.length (List.filter_congr fun part _ => ?_)
          rw [Bool.eq_iff_iff, decide_eq_true_eq, beq_iff_eq]
      _ ≤ 1 := List.nodup_iff_count.1 distinct key
  generalize parts.filter (fun part => key? part = some key) = found at kept few
  match found, few with
  | [], _ => exact kept.nil_eq
  | [part], _ => exact (List.perm_singleton.1 kept.symm).symm

/-- A block of segments with different keys may be in any order. -/
theorem named_ofSegments_of_perm {block permuted : List (List Char)}
    (apart : ∀ segment ∈ block, '&' ∉ segment) (perm : block.Perm permuted)
    (distinct : (block.filterMap key?).Nodup) (before after : List (List Char)) (key : String) :
    named key (ofSegments (before ++ permuted ++ after))
      = named key (ofSegments (before ++ block ++ after)) := by
  have apart' : ∀ segment ∈ permuted, '&' ∉ segment := fun segment mem =>
    apart segment (perm.mem_iff.2 mem)
  have same : named key (ofSegments permuted) = named key (ofSegments block) := by
    rw [named_ofSegments_of_apart apart, named_ofSegments_of_apart apart',
      filter_key?_eq_of_perm perm distinct]
  simp only [named_ofSegments_append, same]

/-! ## Segments of no account -/

/-- A segment that is no pair, or a pair with another key than those of interest. -/
def IsNoise (keys : List String) (segment : List Char) : Prop :=
  '&' ∉ segment
    ∧ (segment.count '=' ≠ 1 ∨ ∃ key, key? segment = some key ∧ key ∉ keys)

theorem IsNoise.key?_ne {keys : List String} {segment : List Char} (noise : IsNoise keys segment)
    {key : String} (mem : key ∈ keys) : key? segment ≠ some key := by
  obtain ⟨_, malformed | ⟨other, isOther, unknown⟩⟩ := noise
  · rw [key?_eq_none_iff.2 malformed]
    exact nofun
  · rw [isOther]
    rintro ⟨⟩
    exact unknown mem

/-- Noise may stand anywhere. -/
theorem named_ofSegments_of_noise {keys : List String} {noise : List (List Char)}
    (all : ∀ segment ∈ noise, IsNoise keys segment) (before after : List (List Char)) {key : String}
    (mem : key ∈ keys) :
    named key (ofSegments (before ++ noise ++ after))
      = named key (ofSegments (before ++ after)) := by
  have nothing : named key (ofSegments noise) = [] := by
    rw [named_ofSegments_of_apart fun segment inNoise => (all segment inNoise).1,
      List.filter_eq_nil_iff]
    intro segment inNoise
    rw [decide_eq_true_eq]
    exact (all segment inNoise).key?_ne mem
  simp only [named_ofSegments_append, nothing, List.append_nil]

end Form

end SealedEnvelope
