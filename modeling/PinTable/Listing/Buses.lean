import PinTable.Listing.Line
import PinTable.Wiring

set_option autoImplicit false

namespace PinTable.Listing

/-- The main record, which holds the last bus. -/
def deviceBusSymbol : String := "pins_devicebus"

/-- The routine that initializes buses, drivers and chips. -/
def initializerSymbol : String := "pins_initialize_bus_devices"

/-- The line that guards the code of the buses. -/
def busCondition : String := "#if PINS_SPI || PINS_I2C"

/-- The definition of the bus at a position, which links to the bus before it. -/
def busLine (wiring : Wiring) (position : Nat) (bus : Bus) : String :=
  let head := referenceTo ((wiring.headOf? bus).map Chip.symbol)
  "PinsBus " ++ bus.symbol ++ " = " ++
    braced (bus.kind.symbol ++ ", " ++ head ++ ", " ++ wiring.previousReference position) ++ ";"

/-- The definition of a chip, which links to the chip that joined its bus before it. -/
def chipLine (wiring : Wiring) (chip : Chip) : String :=
  let bus := referenceTo ((wiring.busOf? chip).map Bus.symbol)
  let next := referenceTo ((wiring.nextOf? chip).map Chip.symbol)
  let entry (name : String) := addressOf (chip.driver ++ name)
  "PinsBusDevice " ++ chip.symbol ++ " = " ++
    braced (chip.pin.address ++ ", " ++ bus ++ ", " ++ next ++ ", " ++ entry "_gen_req" ++ ", " ++
      entry "_proc_resp" ++ ", " ++ entry "_set" ++ ", " ++ entry "_get") ++ ";"

def busCall (bus : Bus) : String := "    pins_init_bus(" ++ addressOf bus.symbol ++ ");"

def driverCall (driver : String) : String := "    " ++ driver ++ "_initialize_driver();"

def chipCall (chip : Chip) : String :=
  "    " ++ chip.driver ++ "_initialize(" ++ addressOf chip.symbol ++ ");"

/-- The initializing routine: buses, then drivers, then chips. -/
def initializerLines (wiring : Wiring) : List String :=
  ["void " ++ initializerSymbol ++ "(void)", "\x7b"] ++ wiring.buses.map busCall ++
    wiring.drivers.map driverCall ++ wiring.chips.map chipCall ++ ["\x7d"]

def busSource (wiring : Wiring) : List String :=
  ["", busCondition] ++
    sectionComment "SPI and I2C bus structures" ++
    wiring.buses.mapIdx (busLine wiring) ++
    sectionComment "Device bus main structure" ++
    ["PinsDeviceBus " ++ deviceBusSymbol ++ " = " ++ braced wiring.lastReference ++ ";"] ++
    sectionComment "SPI and I2C device structures" ++
    wiring.chips.map (chipLine wiring) ++
    sectionComment "Initialize all SPI and I2C bus devices" ++
    initializerLines wiring ++ ["#endif"]

def driverLines (driver : String) : List String :=
  sectionComment (driver ++ " driver functions") ++
    ["void " ++ driver ++ "_initialize_driver(void);",
      "void " ++ driver ++ "_initialize(struct PinsBusDevice *device);",
      "void " ++ driver ++ "_gen_req(struct PinsBusDevice *device);",
      "osalStatus " ++ driver ++ "_proc_resp(struct PinsBusDevice *device);",
      "void " ++ driver ++ "_set(struct PinsBusDevice *device, os_short addr, os_int value);",
      "os_int " ++ driver ++ "_get(struct PinsBusDevice *device, os_short addr);"]

def busHeader (wiring : Wiring) : List String :=
  sectionComment "SPI and I2C initialization" ++ [busCondition] ++
    sectionComment "SPI and I2C bus structures" ++
    wiring.buses.map (fun bus => "extern PinsBus " ++ bus.symbol ++ ";") ++
    sectionComment "Device bus main structure" ++
    ["extern PinsDeviceBus " ++ deviceBusSymbol ++ ";"] ++
    sectionComment "SPI and I2C device structures" ++
    wiring.chips.map (fun chip => "extern PinsBusDevice " ++ chip.symbol ++ ";") ++
    wiring.drivers.flatMap driverLines ++
    sectionComment "Initialize all SPI and I2C bus devices" ++
    ["void " ++ initializerSymbol ++ "(void);", "#endif"]

end PinTable.Listing
