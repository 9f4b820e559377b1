import SealedEnvelope.Error
import SealedEnvelope.Text.Split

/-!
# Locations (SPEC_FULL §6)

A position on the earth.  Its encoding is a text: a line of two or three numbers, and up to two
lines for the name of the place and its address.
-/

set_option autoImplicit false

namespace SealedEnvelope

/-- A position in degrees, with its accuracy in metres, the name of the place and its address.  A
name comes with an address. -/
structure Location where
  latitude : Binary64
  longitude : Binary64
  accuracy : Option Binary64
  name : Option String
  address : Option String
  deriving DecidableEq, Repr, Inhabited

namespace Location

/-! ## Making locations -/

/-- A number that the encoding can carry. -/
def finite (field : LocationField) (number : Binary64) : Except Error Binary64 :=
  if number.isFinite then .ok number else .error (.illegalField field (.notFinite number))

/-- A text that the encoding can carry: lines are what separates its parts. -/
def singleLine (field : LocationField) (text : String) : Except Error String :=
  if text.toList.contains '\n' then .error (.illegalField field .lineBreak) else .ok text

/-- The location with the given coordinates. -/
def make (latitude longitude : Binary64) : Except Error Location := do
  let latitude ← finite .latitude latitude
  let longitude ← finite .longitude longitude
  return ⟨latitude, longitude, none, none, none⟩

/-- The location with an accuracy. -/
def withAccuracy (location : Location) (accuracy : Binary64) : Except Error Location := do
  let accuracy ← finite .accuracy accuracy
  return { location with accuracy := some accuracy }

/-- The location with an address and no name. -/
def withAddress (location : Location) (address : String) : Except Error Location := do
  let address ← singleLine .address address
  return { location with name := none, address := some address }

/-- The location with a name and an address. -/
def withNameAndAddress (location : Location) (name address : String) : Except Error Location := do
  let name ← singleLine .name name
  let address ← singleLine .address address
  return { location with name := some name, address := some address }

/-! ## Encoding -/

/-- The numbers of the first line. -/
def coordinates (location : Location) : List (List Char) :=
  Decimal.ofBinary64 location.latitude :: Decimal.ofBinary64 location.longitude
    :: location.accuracy.toList.map Decimal.ofBinary64

/-- The lines of the encoding. -/
def lines (location : Location) : List (List Char) :=
  Text.join ',' location.coordinates
    :: (location.name.toList ++ location.address.toList).map String.toList

/-- The body of a location message. -/
def encode (location : Location) : Bytes := Utf8.encodeChars (Text.join '\n' location.lines)

/-! ## Decoding -/

/-- The finite number that a text stands for. -/
def parseNumber (text : List Char) : Except Error Binary64 :=
  match Decimal.binary64? text with
  | some number =>
    if number.isFinite then .ok number
    else .error (.malformed .locationMessage (.notNumber (String.ofList text)))
  | none => .error (.malformed .locationMessage (.notNumber (String.ofList text)))

/-- The location without a name and an address whose numbers are given as texts.  They are read from
left to right. -/
def parseCoordinates : List (List Char) → Except Error Location
  | [latitude, longitude] => do
    let latitude ← parseNumber latitude
    let longitude ← parseNumber longitude
    return ⟨latitude, longitude, none, none, none⟩
  | [latitude, longitude, accuracy] => do
    let latitude ← parseNumber latitude
    let longitude ← parseNumber longitude
    let accuracy ← parseNumber accuracy
    return ⟨latitude, longitude, some accuracy, none, none⟩
  | parts => .error (.malformed .locationMessage (.coordinateCount parts.length))

/-- The location with what the lines after the first one say. -/
def withLines (location : Location) : List (List Char) → Except Error Location
  | [] => .ok location
  | [address] => .ok { location with address := some (String.ofList address) }
  | [name, address] =>
    .ok { location with
      name := some (String.ofList name), address := some (String.ofList address) }
  | lines => .error (.malformed .locationMessage (.lineCount (lines.length + 1)))

/-- The location that the lines of an encoding spell. -/
def ofLines : List (List Char) → Except Error Location
  | [] => .error (.malformed .locationMessage (.coordinateCount 0))
  | first :: others => do
    let location ← parseCoordinates (Text.split ',' first)
    location.withLines others

/-- The location that the body of a message holds. -/
def decode (body : Bytes) : Except Error Location :=
  match Utf8.decodeChars body with
  | .ok text => ofLines (Text.split '\n' text)
  | .error fault => .error (.malformed .locationMessage (.notText fault))

/-! ## Description -/

/-- The description of a location. -/
def describe (location : Location) : String :=
  let notes := (location.name.toList ++ location.address.toList).map fun text => ", " ++ text
  "Location[" ++ location.latitude.text ++ " " ++ location.longitude.text ++ String.join notes
    ++ "]"

end Location

end SealedEnvelope
