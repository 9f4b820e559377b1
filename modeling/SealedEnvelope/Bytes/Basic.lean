/-!
# Byte strings

A byte string is a list of octets, so that every function on it is a recursion a proof can follow.
-/

set_option autoImplicit false

namespace SealedEnvelope

-- Powers are those of the core library, also where a module brings in powers in any monoid: all
-- modules then mean the same term by `2 ^ n`.
attribute [instance (high), default_instance (high)] instPowNat

/-- A byte string. -/
abbrev Bytes := List UInt8

namespace Bytes

/-- `count` bytes of value zero. -/
def zeros (count : Nat) : Bytes := List.replicate count 0

/-- The groups of `size` bytes that make up `bytes`, at most `limit` of them. -/
def groupsUpTo (size : Nat) : Nat → Bytes → List Bytes
  | 0, _ => []
  | _ + 1, [] => []
  | limit + 1, byte :: rest =>
      (byte :: rest).take size :: groupsUpTo size limit ((byte :: rest).drop size)

/-- The groups of `size` bytes that make up `bytes`; the last one may be shorter.  There are never
more groups than bytes, so the limit does not bite for a positive `size`. -/
def groups (size : Nat) (bytes : Bytes) : List Bytes := groupsUpTo size bytes.length bytes

/-- Adds two byte strings bit by bit, up to the end of the shorter one. -/
def xor (left right : Bytes) : Bytes := List.zipWith (· ^^^ ·) left right

@[simp] theorem length_zeros (count : Nat) : (zeros count).length = count := by
  simp [zeros]

@[simp] theorem length_xor (left right : Bytes) :
    (xor left right).length = min left.length right.length := by
  simp [xor]

/-- Adding the same stream twice gives the bytes back. -/
theorem xor_xor (bytes stream : Bytes) (h : bytes.length ≤ stream.length) :
    xor (xor bytes stream) stream = bytes := by
  induction bytes generalizing stream with
  | nil => simp [xor]
  | cons byte rest ih =>
    cases stream with
    | nil => simp at h
    | cons mask masks =>
      have := ih masks (by simpa using h)
      simp only [xor, List.zipWith_cons_cons] at this ⊢
      rw [this, UInt8.xor_assoc, UInt8.xor_self, UInt8.xor_zero]

end Bytes

end SealedEnvelope
