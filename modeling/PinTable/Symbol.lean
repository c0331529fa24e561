import PinTable.PinKind
import PinTable.Text.Decimal
import PinTable.Text.Uppercase

set_option autoImplicit false

namespace PinTable

def nullReference : String := "OS_NULL"

/-- The reference to a symbol or a member. -/
def addressOf (symbol : String) : String := "&" ++ symbol

/-- The reference to a symbol or a member, or the null pointer for none. -/
def referenceTo : Option String → String
  | some symbol => addressOf symbol
  | none => nullReference

/-- A pin among those of all devices: the base name of its device, the kind of its group and its own
name. -/
structure QualifiedPin where
  base : String
  kind : PinKind
  name : String
  deriving DecidableEq, Repr

namespace QualifiedPin

/-- The member of the generated structure that holds the pin, as `pins.inputs.x`. -/
def member (pin : QualifiedPin) : String := pin.base ++ "." ++ pin.kind.name ++ "." ++ pin.name

/-- The reference to a pin, as `&pins.inputs.x`. -/
def address (pin : QualifiedPin) : String := addressOf pin.member

/-- The reference to a pin that may be missing. -/
def reference (pin : Option QualifiedPin) : String := referenceTo (pin.map member)

/-- The parts of a pin's symbols, joined as `pins_inputs_x`. -/
def joined (pin : QualifiedPin) : String := pin.base ++ "_" ++ pin.kind.name ++ "_" ++ pin.name

/-- The array of a pin's settings, as `pins_inputs_x_prm`. -/
def settingsArray (pin : QualifiedPin) : String := pin.joined ++ "_prm"

/-- The interrupt configuration of a pin, as `pins_x_intconf`. -/
def interruptSymbol (pin : QualifiedPin) : String := pin.base ++ "_" ++ pin.name ++ "_intconf"

/-- The bus device of a pin that has a driver, as `pins_device_spi_adc`. -/
def busDeviceSymbol (pin : QualifiedPin) : String :=
  pin.base ++ "_device_" ++ pin.kind.name ++ "_" ++ pin.name

end QualifiedPin

/-- The bus device that a pin refers to as `spi.adc`, which becomes `pins_device_spi_adc`. -/
def deviceSymbol (base reference : String) : String :=
  base ++ "_device_" ++ reference.map fun c => if c = '.' then '_' else c

/-- The head of the list of pins that carry a tag. -/
def tagSymbol (base tag : String) : String := base ++ "_" ++ tag ++ "_group"

/-- A constant that tells the name of a pin or a tag to C code. -/
structure NameConstant where
  symbol : String
  value : String
  deriving DecidableEq, Repr

namespace NameConstant

def ofPin (pin : QualifiedPin) : NameConstant := ⟨uppercase pin.joined, pin.name⟩

def ofTag (base tag : String) : NameConstant := ⟨uppercase (base ++ "_" ++ tag ++ "_GROUP"), tag⟩

def text (constant : NameConstant) : String :=
  "#define " ++ constant.symbol ++ " \"" ++ constant.value ++ "\""

end NameConstant

/-- What tells buses apart: the base name of the device, the kind of the pins, and the address of
the clock line. -/
structure BusId where
  base : String
  kind : PinKind
  clock : Int
  deriving DecidableEq, Repr

namespace BusId

/-- The symbol of a bus, as `pins_bus_spi_18`. -/
def symbol (id : BusId) : String :=
  id.base ++ "_bus_" ++ id.kind.name ++ "_" ++ intText id.clock

end BusId

end PinTable
