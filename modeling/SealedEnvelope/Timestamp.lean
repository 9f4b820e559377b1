import SealedEnvelope.Error

/-!
# Points in time (SPEC_FULL §4.6)

Whole seconds since 1970, within the years that a calendar date can name.
-/

set_option autoImplicit false

namespace SealedEnvelope

namespace Timestamp

/-- The first second that a date can name. -/
def first : Int := -8334601228800

/-- The last second that a date can name. -/
def last : Int := 8210266876799

end Timestamp

/-- A second that a date can name. -/
structure Timestamp where
  seconds : Int
  first_le : Timestamp.first ≤ seconds
  le_last : seconds ≤ Timestamp.last
  deriving DecidableEq

namespace Timestamp

/-- Whether a number fits a signed word of sixty-four bits. -/
def fitsWord (seconds : Int) : Bool := -2 ^ 63 ≤ seconds && seconds < 2 ^ 63

/-- The time with the given number of seconds, if a date can name it. -/
def ofSeconds (seconds : Int) : Except Error Timestamp :=
  if h : first ≤ seconds ∧ seconds ≤ last then .ok ⟨seconds, h.1, h.2⟩
  else .error (.malformed .callbackDate (.outOfRange seconds))

/-- The time that a decimal text stands for.  A number beyond a word counts as no number. -/
def parse (text : String) : Except Error Timestamp :=
  match Decimal.integer? text.toList with
  | none => .error (.malformed .callbackDate (.notInteger text))
  | some seconds =>
    if fitsWord seconds then ofSeconds seconds
    else .error (.malformed .callbackDate (.notInteger text))

/-- The decimal text of a time. -/
def text (time : Timestamp) : String := String.ofList (Decimal.ofInteger time.seconds)

end Timestamp

end SealedEnvelope
