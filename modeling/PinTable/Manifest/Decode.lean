import PinTable.Manifest.Basic
import PinTable.Parameter
import PinTable.Outcome

set_option autoImplicit false

namespace PinTable

/-- Why a value cannot be a part of a manifest. -/
inductive DecodeCause where
  | missingRoot
  | missingGroups (device : String)
  | missingGroupName (device : String)
  | missingPins (device : String) (kind : PinKind)
  | missingPinName (device : String) (kind : PinKind)
  | typeMismatch (expected found : JsonType)
  | outOfRange (value : Int)
  deriving DecidableEq, Repr

namespace DecodeCause

def message : DecodeCause → String
  | missingRoot => "'io' not found"
  | missingGroups device => "'groups' not found for " ++ device
  | missingGroupName device => "'name' not found for group in " ++ device
  | missingPins device kind => "'pins' not found for " ++ device ++ " " ++ kind.name
  | missingPinName device kind => "'name' not found for pin in " ++ device ++ " " ++ kind.name
  | typeMismatch expected found =>
      "Type mismatch: expected " ++ expected.name ++ ", found " ++ found.name
  | outOfRange value => "Integer " ++ intText value ++ " out of range"

end DecodeCause

/-- What keeps a document from being a manifest, and the value that does. -/
structure DecodeFault where
  cause : DecodeCause
  location : Location
  deriving DecidableEq, Repr

namespace DecodeFault

def message (fault : DecodeFault) : String := fault.location.annotate fault.cause.message

end DecodeFault

/-- A decoded part of a document, or the first fault in it. -/
abbrev Decoded (α : Type) : Type := Except DecodeFault α

/-- A decoded part of a document, with the warnings about what was left out. -/
abbrev Decoding (α : Type) : Type := Outcome DecodeFault α

def faultAt {α : Type} (place : Location) (cause : DecodeCause) : Decoded α :=
  .error ⟨cause, place⟩

/-- Takes the items one after the other, each with its position. -/
def forEachAt {m : Type → Type} [Monad m] {α β : Type} (step : Nat → α → m β) :
    Nat → List α → m (List β)
  | _, [] => pure []
  | position, item :: rest => do
      let first ← step position item
      let others ← forEachAt step (position + 1) rest
      pure (first :: others)

namespace Json

def expectObject (value : Json) (place : Location) : Decoded (Entries Json) :=
  match value with
  | object entries => .ok entries
  | other => faultAt place (.typeMismatch .object other.type)

def expectArray (value : Json) (place : Location) : Decoded (List Json) :=
  match value with
  | array items => .ok items
  | other => faultAt place (.typeMismatch .array other.type)

end Json

/-- A text field, which may be absent. -/
def stringField? (object : Entries Json) (key : String) (place : Location) :
    Decoded (Option String) :=
  match Entries.find? key object with
  | none => .ok none
  | some (.string text) => .ok (some text)
  | some other => faultAt (place.key key) (.typeMismatch .string other.type)

/-- A field with a signed 64-bit integer, which may be absent. -/
def integerField? (object : Entries Json) (key : String) (place : Location) :
    Decoded (Option Int) :=
  match Entries.find? key object with
  | none => .ok none
  | some (.number (.integer value _ _)) =>
      if value ≤ maxInt64 then .ok (some value) else faultAt (place.key key) (.outOfRange value)
  | some other => faultAt (place.key key) (.typeMismatch .integer other.type)

def requireField (object : Entries Json) (key : String) (place : Location)
    (missing : DecodeCause) : Decoded Json :=
  match Entries.find? key object with
  | none => faultAt place missing
  | some value => .ok value

def requireString (object : Entries Json) (key : String) (place : Location)
    (missing : DecodeCause) : Decoded String := do
  match ← stringField? object key place with
  | none => faultAt place missing
  | some text => .ok text

def attributesOf (object : Entries Json) : List Attribute :=
  (object.filter fun entry => !isStructural entry.1).map fun entry => ⟨entry.1, entry.2⟩

def Pin.decode (device : String) (kind : PinKind) (place : Location) (value : Json) :
    Decoded Pin := do
  let object ← value.expectObject place
  let name ← requireString object "name" place (.missingPinName device kind)
  let tag ← stringField? object "group" place
  let driver ← stringField? object "driver" place
  let chip ← stringField? object "device" place
  let bank ← integerField? object "bank" place
  let addr ← integerField? object "addr" place
  return ⟨name, bank.getD 0, addr.getD 0, tag, driver, chip, attributesOf object, place⟩

def PinGroup.decodePins (device : String) (kind : PinKind) (place : Location)
    (object : Entries Json) : Decoded PinGroup := do
  let pins ← requireField object "pins" place (.missingPins device kind)
  let items ← pins.expectArray (place.key "pins")
  let decoded ← forEachAt (fun position item =>
    Pin.decode device kind ((place.key "pins").index position) item) 0 items
  return ⟨kind, decoded, place⟩

/-- Decodes a group, or leaves it out if its kind is not known. -/
def PinGroup.decode (device : String) (place : Location) (value : Json) :
    Decoding (Option PinGroup) := do
  let object ← .ofExcept (value.expectObject place)
  let kindName ← .ofExcept (requireString object "name" place (.missingGroupName device))
  match PinKind.ofName? kindName with
  | none => .reporting [.warned (.unknownGroup device kindName)] none
  | some kind => do
      let group ← .ofExcept (decodePins device kind place object)
      return some group

def Device.decode (place : Location) (value : Json) : Decoding Device := do
  let object ← .ofExcept (value.expectObject place)
  let name ← .ofExcept (stringField? object "name" place)
  let name := name.getD defaultName
  let base ← .ofExcept (stringField? object "prefix" place)
  let groups ← .ofExcept (requireField object "groups" place (.missingGroups name))
  let items ← .ofExcept (groups.expectArray (place.key "groups"))
  let decoded ← forEachAt (fun position item =>
    PinGroup.decode name ((place.key "groups").index position) item) 0 items
  return ⟨name, base.getD defaultBase, decoded.filterMap id, place⟩

def Manifest.decode (place : Location) (value : Json) : Decoding Manifest := do
  let object ← .ofExcept (value.expectObject place)
  let devices ← .ofExcept (requireField object "io" place .missingRoot)
  let items ← .ofExcept (devices.expectArray (place.key "io"))
  let decoded ← forEachAt (fun position item =>
    Device.decode ((place.key "io").index position) item) 0 items
  return ⟨decoded⟩

end PinTable
