import SealedEnvelope.Cipher.Hmac
import SealedEnvelope.Number.Decimal
import SealedEnvelope.Octets
import SealedEnvelope.Text.Blank

/-!
# Lookup hashes (SPEC_FULL §4.5)

Contacts are looked up by hashes of their phone numbers and email addresses, brought to one form
first.  The two kinds are keyed differently, so that no phone number is taken for an address.
-/

set_option autoImplicit false

namespace SealedEnvelope

namespace Lookup

/-- The public key that phone numbers are hashed under. -/
def phoneKey : Bytes :=
  [0x85, 0xad, 0xf8, 0x22, 0x69, 0x53, 0xf3, 0xd9, 0x6c, 0xfd, 0x5d, 0x09, 0xbf, 0x29, 0x55, 0x5e,
   0xb9, 0x55, 0xfc, 0xd8, 0xaa, 0x5e, 0xc4, 0xf9, 0xfc, 0xd8, 0x69, 0xe2, 0x58, 0x37, 0x07, 0x23]

/-- The public key that email addresses are hashed under. -/
def emailKey : Bytes :=
  [0x30, 0xa5, 0x50, 0x0f, 0xed, 0x97, 0x01, 0xfa, 0x6d, 0xef, 0xdb, 0x61, 0x08, 0x41, 0x90, 0x0f,
   0xeb, 0xb8, 0xe4, 0x30, 0x88, 0x1f, 0x7a, 0xd8, 0x16, 0x82, 0x62, 0x64, 0xec, 0x09, 0xba, 0xd7]

/-- The digits of a phone number. -/
def normalizePhone (number : String) : String :=
  String.ofList (number.toList.filter Decimal.isDigit)

/-- An email address without blanks around it, its letters of ASCII in lower case. -/
def normalizeEmail (address : String) : String :=
  String.ofList ((Text.trim address.toList).map Char.toLower)

/-- The hash of a normalized text. -/
def hash (key : Bytes) (text : String) : LookupHash :=
  ⟨Hmac.authenticate key (Utf8.encode text), by simp [Role.size]⟩

/-- The hash of a phone number. -/
def ofPhone (number : String) : LookupHash := hash phoneKey (normalizePhone number)

/-- The hash of an email address. -/
def ofEmail (address : String) : LookupHash := hash emailKey (normalizeEmail address)

end Lookup

end SealedEnvelope
