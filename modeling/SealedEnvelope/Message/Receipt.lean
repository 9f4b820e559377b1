import SealedEnvelope.Error

/-!
# Delivery receipts (SPEC_FULL §6)

A receipt says what became of earlier messages.
-/

set_option autoImplicit false

namespace SealedEnvelope

/-- What became of a message. -/
inductive ReceiptType where
  | undefined
  | received
  | read
  | thumbsUp
  | thumbsDown
  deriving DecidableEq, Repr, Inhabited

namespace ReceiptType

/-- The number of a type in a message. -/
def value : ReceiptType → UInt8
  | .undefined => 0
  | .received => 1
  | .read => 2
  | .thumbsUp => 3
  | .thumbsDown => 4

/-- The type with a number. -/
def ofValue (value : UInt8) : Except Error ReceiptType :=
  if value = 0 then .ok .undefined
  else if value = 1 then .ok .received
  else if value = 2 then .ok .read
  else if value = 3 then .ok .thumbsUp
  else if value = 4 then .ok .thumbsDown
  else .error (.malformed .deliveryReceipt (.unknownReceipt value.toNat))

/-- The name of a type. -/
def label : ReceiptType → String
  | .undefined => "UNDEFINED"
  | .received => "RECEIVED"
  | .read => "READ"
  | .thumbsUp => "THUMBSUP"
  | .thumbsDown => "THUMBSDOWN"

@[simp] theorem ofValue_value (type : ReceiptType) : ofValue type.value = .ok type := by
  cases type <;> rfl

end ReceiptType

/-- What became of some earlier messages. -/
structure Receipt where
  type : ReceiptType
  ids : List MessageId
  deriving DecidableEq

namespace Receipt

/-- The body of a receipt: the number of its type, then the identifiers. -/
def encode (receipt : Receipt) : Bytes :=
  receipt.type.value :: receipt.ids.flatMap Octets.toList

/-- The identifiers of eight bytes each; bytes that are left over are dropped. -/
def idsOf : Bytes → List MessageId
  | a :: b :: c :: d :: e :: f :: g :: h :: rest => ⟨[a, b, c, d, e, f, g, h], rfl⟩ :: idsOf rest
  | _ => []

/-- The receipt that the body of a message holds. -/
def decode : Bytes → Except Error Receipt
  | [] => .error (.malformed .deliveryReceipt .missingReceiptType)
  | type :: ids =>
    if ids.length % 8 = 0 then (ReceiptType.ofValue type).map fun type => ⟨type, idsOf ids⟩
    else .error (.malformed .deliveryReceipt (.raggedIds ids.length))

/-- The description of a receipt. -/
def describe (receipt : Receipt) : String :=
  "DeliveryReceipt[" ++ receipt.type.label
    ++ String.join (receipt.ids.map fun id => ", " ++ id.toHex) ++ "]"

theorem idsOf_append (id : MessageId) (rest : Bytes) :
    idsOf (id.toList ++ rest) = id :: idsOf rest := by
  obtain ⟨bytes, length⟩ := id
  match bytes, length with
  | [a, b, c, d, e, f, g, h], _ => rfl

theorem length_flatMap_toList (ids : List MessageId) :
    (ids.flatMap Octets.toList).length = 8 * ids.length := by
  induction ids with
  | nil => rfl
  | cons id ids ih =>
    rw [List.flatMap_cons, List.length_append, id.length_toList, ih, List.length_cons]
    simp only [Role.size]
    omega

theorem idsOf_flatMap_toList (ids : List MessageId) : idsOf (ids.flatMap Octets.toList) = ids := by
  induction ids with
  | nil => rfl
  | cons id ids ih => rw [List.flatMap_cons, idsOf_append, ih]

theorem decode_encode (receipt : Receipt) : decode receipt.encode = .ok receipt := by
  obtain ⟨type, ids⟩ := receipt
  rw [encode, decode, length_flatMap_toList, if_pos (by omega), ReceiptType.ofValue_value,
    idsOf_flatMap_toList]
  rfl

end Receipt

end SealedEnvelope
