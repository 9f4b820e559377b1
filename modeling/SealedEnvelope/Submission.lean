import SealedEnvelope.Envelope
import SealedEnvelope.Form
import SealedEnvelope.Identity

/-!
# Submissions (SPEC_FULL §10.4)

What a participant posts to the gateway to have an envelope delivered.
-/

set_option autoImplicit false

namespace SealedEnvelope

/-- An envelope on its way to the gateway, with what the gateway has to know of it. -/
structure Submission where
  sender : Identity
  secret : String
  receiver : Identity
  envelope : Envelope
  deriving DecidableEq

namespace Submission

/-- The fields of a submission, in the order they are posted. -/
def fields (submission : Submission) : List (String × String) :=
  [("from", submission.sender.text), ("secret", submission.secret),
   ("to", submission.receiver.text), ("box", submission.envelope.boxHex),
   ("nonce", submission.envelope.nonceHex)]

/-- The body of the post. -/
def body (submission : Submission) : FormBody := FormBody.ofPairs submission.fields

end Submission

end SealedEnvelope
