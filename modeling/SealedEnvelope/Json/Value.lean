/-!
# JSON documents

The structure of a document as far as it could be read.  A document that breaks off, or goes on with
something that is no JSON, still has the members before that place.
-/

set_option autoImplicit false

namespace SealedEnvelope

namespace Json

mutual

/-- A value of a document. -/
inductive Value where
  | null
  | bool (value : Bool)
  /-- A number; `none` if it is written with a sign, a point or a power of ten. -/
  | number (natural : Option Nat)
  /-- A string; `none` if its bytes or escapes spell no text. -/
  | string (text : Option String)
  | array (items : Items)
  | object (members : Members)
  /-- What stands here is no value. -/
  | broken

/-- The items of an array. -/
inductive Items where
  /-- The array ends. -/
  | closed
  /-- What stands here is neither an item nor the end. -/
  | broken
  | cons (head : Value) (tail : Items)

/-- The members of an object. -/
inductive Members where
  /-- The object ends. -/
  | closed
  /-- What stands here is neither a member nor the end. -/
  | broken
  /-- A member; its key is `none` if the bytes or escapes spell no text. -/
  | cons (key : Option String) (value : Value) (tail : Members)

end

mutual

/-- Whether a value could be read to its end. -/
def Value.isComplete : Value → Bool
  | .array items => items.isComplete
  | .object members => members.isComplete
  | .broken => false
  | _ => true

/-- Whether an array could be read to its end. -/
def Items.isComplete : Items → Bool
  | .closed => true
  | .broken => false
  | .cons head tail => head.isComplete && tail.isComplete

/-- Whether an object could be read to its end. -/
def Members.isComplete : Members → Bool
  | .closed => true
  | .broken => false
  | .cons _ value tail => value.isComplete && tail.isComplete

end

namespace Value

/-- Whether a value is a text. -/
def isText : Value → Bool
  | .string text => text.isSome
  | _ => false

/-- Whether a value is a text or null. -/
def isTextOrNull : Value → Bool
  | .null => true
  | .string text => text.isSome
  | _ => false

/-- Whether a value is a natural number of at most `limit`, written in digits alone. -/
def isNaturalUpTo (limit : Nat) : Value → Bool
  | .number (some n) => n ≤ limit
  | _ => false

end Value

end Json

end SealedEnvelope
