import SealedEnvelope.Proofs.Callback.Verification
import SealedEnvelope.Proofs.Form.Segments

/-!
# What a callback does not depend on (SPEC_FULL §4.6)

Eight names are looked up in the body of a callback.  Two bodies have one outcome if they have, for
each of these names, the same segments in the same order; so other segments may stand anywhere, and
the order of segments with different keys makes no difference.
-/

set_option autoImplicit false

namespace SealedEnvelope

namespace Callback

/-- The names that are looked up in a body. -/
def readNames : List String :=
  ["from", "to", "messageId", "date", "nonce", "box", "mac", "nickname"]

theorem name_mem_readNames (field : CallbackField) : field.name ∈ readNames := by
  cases field <;> decide

/-! ## Fields that are found alike -/

/-- Two maps with the same texts at the names that are looked up. -/
def ReadAlike (left right : Table String String) : Prop :=
  ∀ name ∈ readNames, left.get? name = right.get? name

section Alike

variable {left right : Table String String} (alike : ReadAlike left right)
include alike

theorem ReadAlike.required_eq (field : CallbackField) :
    required left field = required right field := by
  unfold required
  rw [alike field.name (name_mem_readNames field)]

theorem ReadAlike.signedFields_eq : signedFields left = signedFields right := by
  unfold signedFields
  simp only [alike.required_eq]

theorem ReadAlike.verifyFields_eq (secret : String) :
    verifyFields secret left = verifyFields secret right := by
  have nickname : left.get? "nickname" = right.get? "nickname" := alike _ (by decide)
  unfold verifyFields
  rw [alike.signedFields_eq, nickname]

end Alike

/-- Bodies with the same segments for each name have one outcome, whatever else is in them. -/
theorem verify_congr {left right : String}
    (same : ∀ name ∈ readNames, Form.named name left = Form.named name right) (secret : String) :
    verify secret left = verify secret right := by
  have alike : ReadAlike (Form.decode left) (Form.decode right) := fun name mem =>
    Form.get?_decode_congr (same name mem)
  exact alike.verifyFields_eq secret

/-! ## Order and noise -/

/-- Of two bodies in one, what is found at a key is found in the second one, or else in the first.
So the outcome for a body depends on the segments with the eight names alone, each name for itself:
it is the same after a permutation of segments with different keys, and with any segments in between
that have no `=`, more than one, or a key that is none of the names. -/
theorem verify_indifferent (secret : String) :
    (∀ left right key : String, (Form.decode (left ++ "&" ++ right)).get? key
        = ((Form.decode right).get? key).or ((Form.decode left).get? key))
      ∧ (∀ body other : String,
        (∀ name ∈ readNames, Form.named name body = Form.named name other) →
          verify secret body = verify secret other)
      ∧ (∀ before block permuted after : List (List Char),
        (∀ segment ∈ block, '&' ∉ segment) → block.Perm permuted →
          (block.filterMap Form.key?).Nodup →
          verify secret (Form.ofSegments (before ++ permuted ++ after))
            = verify secret (Form.ofSegments (before ++ block ++ after)))
      ∧ ∀ before noise after : List (List Char),
        (∀ segment ∈ noise, Form.IsNoise readNames segment) →
          verify secret (Form.ofSegments (before ++ noise ++ after))
            = verify secret (Form.ofSegments (before ++ after)) := by
  refine ⟨Form.get?_decode_append, fun body other same => verify_congr same secret, ?_, ?_⟩
  · intro before block permuted after apart perm distinct
    exact verify_congr
      (fun name _ => Form.named_ofSegments_of_perm apart perm distinct before after name) secret
  · intro before noise after all
    exact verify_congr
      (fun name mem => Form.named_ofSegments_of_noise all before after mem) secret

/-- A genuine callback is accepted with its segments in the reverse order, and with others before
them: an empty one, one with two `=`, and one with a key that is none of the names. -/
theorem verify_indifferent_genuine :
    let callback : Callback :=
      { sender := ⟨"%&=+#*.-", by decide⟩
        receiver := ⟨"RECEIVER", by decide⟩
        messageId := ⟨[0, 1, 2, 3, 4, 5, 6, 255], rfl⟩
        date := ⟨1650000000, by decide, by decide⟩
        envelope := ⟨[1, 2], ⟨Bytes.zeros 24, rfl⟩, by decide⟩
        nickname := some "Zoë & co" }
    let segments := (callback.pairs "secret").map Form.segment
    let noise := [[], "date=1=2".toList, "dat%45=1".toList]
    verify "secret" (Form.ofSegments segments.reverse) = .ok callback
      ∧ verify "secret" (Form.ofSegments (noise ++ segments)) = .ok callback := by
  intro callback segments noise
  obtain ⟨_, _, permuted, inserted⟩ := verify_indifferent "secret"
  have genuine : verify "secret" (Form.ofSegments segments) = .ok callback := by
    have order := List.Perm.refl (callback.pairs "secret")
    have posted :
        verify "secret" (FormBody.ofPairs (callback.pairs "secret")).text = .ok callback :=
      verifyFields_eq_ok.2 ⟨_, signedFields_posted order, ofFields_posted order⟩
    rwa [FormBody.text, FormBody.chars_ofPairs] at posted
  constructor
  · have apart : ∀ segment ∈ segments, '&' ∉ segment := by
      intro segment mem
      obtain ⟨pair, _, rfl⟩ := List.mem_map.1 mem
      exact Form.ampersand_not_mem_segment pair
    have distinct : (segments.filterMap Form.key?).Nodup := by
      rw [Form.filterMap_key?_segment]
      exact callback.nodup_pairs "secret"
    have same := permuted [] segments segments.reverse [] apart segments.reverse_perm.symm distinct
    rw [List.nil_append, List.nil_append, List.append_nil, List.append_nil] at same
    rw [same, genuine]
  · have ignored : ∀ segment ∈ noise, Form.IsNoise readNames segment := by
      intro segment mem
      simp only [noise, List.mem_cons, List.not_mem_nil, or_false] at mem
      rcases mem with rfl | rfl | rfl
      · exact ⟨by decide, .inl (by decide)⟩
      · exact ⟨by decide, .inl (by decide)⟩
      · exact ⟨by decide, .inr ⟨"datE", by decide +kernel, by decide⟩⟩
    rw [← List.nil_append noise, inserted [] noise segments ignored]
    exact genuine

end Callback

end SealedEnvelope
