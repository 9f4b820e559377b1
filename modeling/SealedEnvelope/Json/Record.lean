import SealedEnvelope.Json.Reader

/-!
# Records in JSON

A record has fields of known names.  As an object it may hold them in any order, among members of
other names; as an array it holds them in the order of their declaration, and those at its end that
are optional may be left off.
-/

set_option autoImplicit false

namespace SealedEnvelope

namespace Json

/-- Why a document holds no record. -/
inductive Fault where
  | missingField (name : String)
  | duplicateField (name : String)
  | malformed
  deriving DecidableEq, Repr, Inhabited

/-- The wording of a fault. -/
def Fault.message : Fault → String
  | .missingField name => s!"missing field `{name}`"
  | .duplicateField name => s!"duplicate field `{name}`"
  | .malformed => "<json>"

/-- What a record says about one of its fields. -/
structure Field where
  name : String
  admits : Value → Bool
  isOptional : Bool

/-- The fields of a record that a document holds, with their values. -/
abbrev Record := List (String × Value)

namespace Record

/-- The value of a field. -/
def value? (record : Record) (name : String) : Option Value := record.lookup name

/-- The text of a field that must be there. -/
def text (record : Record) (name : String) : Except Fault String :=
  match record.value? name with
  | some (.string (some text)) => .ok text
  | _ => .error (.missingField name)

/-- The text of a field that may be absent or null. -/
def text? (record : Record) (name : String) : Option String :=
  match record.value? name with
  | some (.string text) => text
  | _ => none

/-- The natural number of a field that must be there. -/
def natural (record : Record) (name : String) : Except Fault Nat :=
  match record.value? name with
  | some (.number (some n)) => .ok n
  | _ => .error (.missingField name)

/-- The natural number of a field that may be absent. -/
def natural? (record : Record) (name : String) : Option Nat :=
  match record.value? name with
  | some (.number natural) => natural
  | _ => none

/-- Adds the members of an object to the fields already found.  A name that comes a second time is
noticed before its value is looked at. -/
def ofMembers (fields : List Field) (found : Record) : Members → Except Fault Record
  | .closed => .ok found
  | .broken => .error .malformed
  | .cons none _ _ => .error .malformed
  | .cons (some key) value tail =>
    match fields.find? (fun field => field.name = key) with
    | none => if value.isComplete then ofMembers fields found tail else .error .malformed
    | some field =>
      if (found.value? key).isSome then .error (.duplicateField key)
      else if field.admits value then ofMembers fields ((key, value) :: found) tail
      else .error .malformed

/-- The items of an array as the fields in the order of their declaration. -/
def ofItems : List Field → Items → Except Fault Record
  | [], .closed => .ok []
  | fields, .closed => if fields.all Field.isOptional then .ok [] else .error .malformed
  | field :: fields, .cons head tail =>
    if field.admits head then
      match ofItems fields tail with
      | .ok record => .ok ((field.name, head) :: record)
      | .error fault => .error fault
    else .error .malformed
  | _, _ => .error .malformed

/-- The fields that a value holds. -/
def ofValue (fields : List Field) : Value → Except Fault Record
  | .object members => ofMembers fields [] members
  | .array items => ofItems fields items
  | _ => .error .malformed

end Record

/-- What `interpret` makes of the value of a document, if nothing follows the value. -/
def document {α : Type} (interpret : Value → Except Fault α) (bytes : Bytes) : Except Fault α :=
  let (value, rest) := read bytes
  match interpret value with
  | .ok result => if (skipSpace rest).isEmpty then .ok result else .error .malformed
  | .error fault => .error fault

end Json

end SealedEnvelope
