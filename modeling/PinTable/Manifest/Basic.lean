import PinTable.Json.Basic
import PinTable.Location
import PinTable.PinKind

set_option autoImplicit false

namespace PinTable

/-- What a manifest says of a pin beside its place. -/
structure Attribute where
  key : String
  value : Json

/-- One line of input or output. -/
structure Pin where
  name : String
  bank : Int
  addr : Int
  /-- The tag that the pin shares with others, of any kind. -/
  tag : Option String
  /-- The driver of the chip behind the pin, which is then on a bus. -/
  driver : Option String
  /-- The chip that the pin belongs to, as `spi.adc`. -/
  device : Option String
  /-- The attributes, in the order of the text. -/
  attributes : List Attribute
  location : Location

structure PinGroup where
  kind : PinKind
  pins : List Pin
  location : Location

/-- A unit of inputs and outputs, which gets its own C structure. -/
structure Device where
  name : String
  /-- The start of every symbol of the device, which is the name of its structure. -/
  base : String
  groups : List PinGroup
  location : Location

structure Manifest where
  devices : List Device

namespace Pin

/-- The value of an attribute, the first of its key. -/
def attributeAt? (pin : Pin) (key : String) : Option Json :=
  (pin.attributes.find? fun entry => entry.key == key).map Attribute.value

end Pin

namespace Device

def defaultName : String := "ioblock"

def defaultBase : String := "pins"

end Device

end PinTable
