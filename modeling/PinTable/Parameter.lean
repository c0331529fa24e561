set_option autoImplicit false

namespace PinTable

inductive Parameter where
  | pullUp
  | pullDown
  | touch
  | frequency
  | frequencyKhz
  | resolution
  | initial
  | hpoint
  | interrupt
  | timer
  | timerGroup
  | miso
  | mosi
  | sclk
  | cs
  | dc
  | rx
  | tx
  | transmitterControl
  | speed
  | pinA
  | pinB
  | pinC
  | pinD
  | pinE
  | bankA
  | bankB
  | bankC
  | bankD
  | bankE
  | minimum
  | maximum
  deriving DecidableEq, Repr

namespace Parameter

def key : Parameter → String
  | pullUp => "pull-up"
  | pullDown => "pull-down"
  | touch => "touch"
  | frequency => "frequency"
  | frequencyKhz => "frequency-kHz"
  | resolution => "resolution"
  | initial => "init"
  | hpoint => "hpoint"
  | interrupt => "interrupt"
  | timer => "timer"
  | timerGroup => "tgroup"
  | miso => "miso"
  | mosi => "mosi"
  | sclk => "sclk"
  | cs => "cs"
  | dc => "dc"
  | rx => "rx"
  | tx => "tx"
  | transmitterControl => "tc"
  | speed => "speed"
  | pinA => "pin-a"
  | pinB => "pin-b"
  | pinC => "pin-c"
  | pinD => "pin-d"
  | pinE => "pin-e"
  | bankA => "bank-a"
  | bankB => "bank-b"
  | bankC => "bank-c"
  | bankD => "bank-d"
  | bankE => "bank-e"
  | minimum => "min"
  | maximum => "max"

/-- The enumerator of a parameter in C, spelled as the firmware spells it. -/
def symbol : Parameter → String
  | pullUp => "PIN_PULL_UP"
  | pullDown => "PIN_PULL_DOWN"
  | touch => "PIN_TOUCH"
  | frequency => "PIN_FREQENCY"
  | frequencyKhz => "PIN_FREQENCY_KHZ"
  | resolution => "PIN_RESOLUTION"
  | initial => "PIN_INIT"
  | hpoint => "PIN_HPOINT"
  | interrupt => "PIN_INTERRUPT_ENABLED"
  | timer => "PIN_TIMER_SELECT"
  | timerGroup => "PIN_TIMER_GROUP_SELECT"
  | miso => "PIN_MISO"
  | mosi => "PIN_MOSI"
  | sclk => "PIN_SCLK"
  | cs => "PIN_CS"
  | dc => "PIN_DC"
  | rx => "PIN_RX"
  | tx => "PIN_TX"
  | transmitterControl => "PIN_TRANSMITTER_CTRL"
  | speed => "PIN_SPEED"
  | pinA => "PIN_A"
  | pinB => "PIN_B"
  | pinC => "PIN_C"
  | pinD => "PIN_D"
  | pinE => "PIN_E"
  | bankA => "PIN_A_BANK"
  | bankB => "PIN_B_BANK"
  | bankC => "PIN_C_BANK"
  | bankD => "PIN_D_BANK"
  | bankE => "PIN_E_BANK"
  | minimum => "PIN_MIN"
  | maximum => "PIN_MAX"

def all : List Parameter :=
  [pullUp, pullDown, touch, frequency, frequencyKhz, resolution, initial, hpoint, interrupt, timer,
    timerGroup, miso, mosi, sclk, cs, dc, rx, tx, transmitterControl, speed, pinA, pinB, pinC, pinD,
    pinE, bankA, bankB, bankC, bankD, bankE, minimum, maximum]

theorem mem_all (parameter : Parameter) : parameter ∈ all := by
  cases parameter <;> decide

def ofKey? (text : String) : Option Parameter :=
  all.find? fun parameter => parameter.key == text

theorem ofKey?_key (parameter : Parameter) : ofKey? parameter.key = some parameter := by
  cases parameter <;> decide

theorem key_of_ofKey? (text : String) (parameter : Parameter)
    (found : ofKey? text = some parameter) : parameter.key = text := by
  simpa using List.find?_some found

end Parameter

/-- The keys of a pin that place it rather than set a parameter. -/
def structuralKeys : List String := ["name", "addr", "bank", "group", "device", "driver"]

/-- The key places the pin rather than sets a parameter. -/
def isStructural (key : String) : Bool := structuralKeys.contains key

end PinTable
