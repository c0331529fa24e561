set_option autoImplicit false

namespace PinTable

/-- What the pins of a group do. -/
inductive PinKind where
  | inputs
  | outputs
  | analogInputs
  | analogOutputs
  | pwm
  | spi
  | timers
  | cameras
  | uart
  deriving DecidableEq, Repr

/-- The two kinds of buses that the firmware drives. -/
inductive BusKind where
  | spi
  | i2c
  deriving DecidableEq, Repr

namespace BusKind

/-- The enumerator of a bus kind in C. -/
def symbol : BusKind → String
  | spi => "PINS_SPI_BUS"
  | i2c => "PINS_I2C_BUS"

end BusKind

namespace PinKind

/-- The name of a kind in manifests, which is also its member in the C structure. -/
def name : PinKind → String
  | inputs => "inputs"
  | outputs => "outputs"
  | analogInputs => "analog_inputs"
  | analogOutputs => "analog_outputs"
  | pwm => "pwm"
  | spi => "spi"
  | timers => "timers"
  | cameras => "cameras"
  | uart => "uart"

/-- The enumerator of the type of a kind's pins in C. -/
def typeSymbol : PinKind → String
  | inputs => "PIN_INPUT"
  | outputs => "PIN_OUTPUT"
  | analogInputs => "PIN_ANALOG_INPUT"
  | analogOutputs => "PIN_ANALOG_OUTPUT"
  | pwm => "PIN_PWM"
  | spi => "PIN_SPI"
  | timers => "PIN_TIMER"
  | cameras => "PIN_CAMERA"
  | uart => "PIN_UART"

def all : List PinKind :=
  [inputs, outputs, analogInputs, analogOutputs, pwm, spi, timers, cameras, uart]

theorem mem_all (kind : PinKind) : kind ∈ all := by
  cases kind <;> decide

def ofName? (text : String) : Option PinKind :=
  all.find? fun kind => kind.name == text

theorem ofName?_name (kind : PinKind) : ofName? kind.name = some kind := by
  cases kind <;> decide

theorem name_of_ofName? (text : String) (kind : PinKind) (found : ofName? text = some kind) :
    kind.name = text := by
  simpa using List.find?_some found

/-- The bus of a pin is SPI just for the pins of that kind. -/
def busKind : PinKind → BusKind
  | spi => .spi
  | _ => .i2c

end PinKind

end PinTable
