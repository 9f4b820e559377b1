import SealedEnvelope.Text.Blank
import SealedEnvelope.Text.Split

/-!
# Capabilities (SPEC_FULL §10.3)

What a participant can receive, as the gateway lists it: names with commas between them.
-/

set_option autoImplicit false

namespace SealedEnvelope

/-- Something that a participant can receive. -/
inductive Capability where
  | text
  | image
  | video
  | audio
  | group
  | ballot
  | file
  | call
  | videoCall
  | forwardSecrecy
  | groupCall
  /-- A capability whose name is not one of the others. -/
  | unknown
  deriving DecidableEq, Repr, Inhabited

namespace Capability

/-- The capabilities that have a name of their own. -/
def known : List Capability :=
  [.text, .image, .video, .audio, .group, .ballot, .file, .call, .videoCall, .forwardSecrecy,
   .groupCall]

/-- All capabilities. -/
def all : List Capability := known ++ [.unknown]

/-- The name of a capability. -/
def name : Capability → String
  | .text => "text"
  | .image => "image"
  | .video => "video"
  | .audio => "audio"
  | .group => "group"
  | .ballot => "ballot"
  | .file => "file"
  | .call => "call"
  | .videoCall => "videocall"
  | .forwardSecrecy => "pfs"
  | .groupCall => "groupcall"
  | .unknown => "unknown"

/-- The capability with a name. -/
def ofName (name : String) : Capability :=
  (known.find? fun capability => capability.name = name).getD .unknown

end Capability

/-- A set of capabilities. -/
structure CapabilitySet where
  has : Capability → Bool

namespace CapabilitySet

@[ext] theorem ext {left right : CapabilitySet} (h : ∀ c, left.has c = right.has c) :
    left = right := by
  cases left
  cases right
  simp only [mk.injEq]
  exact funext h

/-- The set of the members of a list. -/
def ofList (capabilities : List Capability) : CapabilitySet := ⟨fun c => capabilities.contains c⟩

/-- The members of a set. -/
def toList (set : CapabilitySet) : List Capability := Capability.all.filter set.has

/-- The capabilities that are in one of two sets. -/
def union (left right : CapabilitySet) : CapabilitySet := ⟨fun c => left.has c || right.has c⟩

/-- The entries of a list of names: without blanks around them, and without empty ones. -/
def entries (list : List Char) : List (List Char) :=
  ((Text.split ',' list).map Text.trim).filter fun entry => !entry.isEmpty

/-- The set that a list of names stands for. -/
def parse (list : String) : CapabilitySet :=
  ofList ((entries list.toList).map fun entry => Capability.ofName (String.ofList entry))

end CapabilitySet

end SealedEnvelope
