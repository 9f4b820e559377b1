import SealedEnvelope.Account
import SealedEnvelope.Ascending
import SealedEnvelope.Blob
import SealedEnvelope.Callback
import SealedEnvelope.Capability
import SealedEnvelope.ContactCard
import SealedEnvelope.Envelope
import SealedEnvelope.Form
import SealedEnvelope.Lookup.Bulk
import SealedEnvelope.Lookup.Hash
import SealedEnvelope.Message.Basic
import SealedEnvelope.Submission
import SealedEnvelope.Text.Utf8.Lemmas
import SealedEnvelope.Proofs.Json.ReadBack
import SealedEnvelope.Proofs.Message.RoundTrip
import SealedEnvelope.Proofs.Callback.Binding
import SealedEnvelope.Proofs.Message.Decoding
import SealedEnvelope.Proofs.Message.Acceptance
import SealedEnvelope.Proofs.Envelope.Capacity
import SealedEnvelope.Proofs.Envelope.Attachments
import SealedEnvelope.Proofs.Envelope.Authenticity
import SealedEnvelope.Proofs.Blob.Separation
import SealedEnvelope.Proofs.Octets.HexText
import SealedEnvelope.Proofs.Octets.HexReading
import SealedEnvelope.Proofs.Callback.Decision
import SealedEnvelope.Proofs.ContactCard.RoundTrip
import SealedEnvelope.Proofs.Callback.Extent
import SealedEnvelope.Proofs.Form.Bodies
import SealedEnvelope.Proofs.Message.Handover
import SealedEnvelope.Proofs.Padding.RoundTrip
import SealedEnvelope.Proofs.Padding.Uniformity
import SealedEnvelope.Proofs.Json.Grammar
import SealedEnvelope.Proofs.Json.Soundness
import SealedEnvelope.Proofs.SecretBox.Exactness
import SealedEnvelope.Proofs.Json.Layout
import SealedEnvelope.Proofs.Message.FileLayout
import SealedEnvelope.Proofs.Lookup.Response
import SealedEnvelope.Proofs.Lookup.Normalization
import SealedEnvelope.Proofs.Form.Segments
import SealedEnvelope.Proofs.Callback.Indifference
import SealedEnvelope.Proofs.Message.Disclosure
import SealedEnvelope.Proofs.Account.Validity
import SealedEnvelope.Proofs.Blob.Reachability
import SealedEnvelope.Proofs.Capability.Union
