import PinTable.Chain
import PinTable.Entries
import PinTable.Symbol

set_option autoImplicit false

namespace PinTable

/-- A chip behind a pin. -/
structure Chip where
  pin : QualifiedPin
  driver : String
  /-- The position of its bus. -/
  bus : Nat
  /-- The position of the chip that joined the same bus before this one. -/
  next : Option Nat
  deriving DecidableEq, Repr

namespace Chip

def symbol (chip : Chip) : String := chip.pin.busDeviceSymbol

end Chip

structure Bus where
  id : BusId
  kind : BusKind
  /-- The position of the chip that joined last. -/
  head : Nat
  deriving DecidableEq, Repr

namespace Bus

def symbol (bus : Bus) : String := bus.id.symbol

end Bus

/-- The buses, chips and drivers of a board, each in the order of first appearance. -/
structure Wiring where
  buses : List Bus
  byId : EntriesBy BusId Nat
  chips : List Chip
  drivers : List String
  deriving DecidableEq, Repr

/-- Where a chip joins: its bus, and the chip that was the newest there. -/
structure Joining where
  bus : Nat
  next : Option Nat
  deriving DecidableEq, Repr

namespace Wiring

def empty : Wiring := ⟨[], [], [], []⟩

/-- Makes the chip that comes next the newest of a bus, which is made if there is none. -/
def join (wiring : Wiring) (id : BusId) : Wiring × Joining :=
  let chip := wiring.chips.length
  match Entries.find? id wiring.byId with
  | some index =>
      ({ wiring with buses := wiring.buses.modify index fun bus => { bus with head := chip } },
        ⟨index, wiring.buses[index]?.map Bus.head⟩)
  | none =>
      let index := wiring.buses.length
      ({ wiring with
         buses := wiring.buses ++ [⟨id, id.kind.busKind, chip⟩]
         byId := Entries.put id index wiring.byId },
        ⟨index, none⟩)

/-- Notes a driver, unless it is known. -/
def noteDriver (drivers : List String) (driver : String) : List String :=
  if driver ∈ drivers then drivers else drivers ++ [driver]

/-- Connects the chip behind a pin, and tells its position. -/
def connect (wiring : Wiring) (pin : QualifiedPin) (driver : String) (clock : Int) :
    Wiring × Nat :=
  let (joined, joining) := wiring.join ⟨pin.base, pin.kind, clock⟩
  ({ joined with
     chips := joined.chips ++ [⟨pin, driver, joining.bus, joining.next⟩]
     drivers := noteDriver joined.drivers driver },
    wiring.chips.length)

def busOf? (wiring : Wiring) (chip : Chip) : Option Bus := wiring.buses[chip.bus]?

/-- The chip that joined a bus last. -/
def headOf? (wiring : Wiring) (bus : Bus) : Option Chip := wiring.chips[bus.head]?

/-- The chip that joined the bus of a chip right before it. -/
def nextOf? (wiring : Wiring) (chip : Chip) : Option Chip :=
  chip.next.bind fun position => wiring.chips[position]?

/-- The links between the chips of each bus, by position. -/
def links (wiring : Wiring) : Links (Option Nat) Nat :=
  Links.ofRecords Chip.next wiring.chips

/-- The reference to the bus before a position, which is the null pointer for the first. -/
def previousReference (wiring : Wiring) : Nat → String
  | 0 => nullReference
  | position + 1 => referenceTo (wiring.buses[position]?.map Bus.symbol)

/-- The reference to the last bus, where the list of buses starts. -/
def lastReference (wiring : Wiring) : String := wiring.previousReference wiring.buses.length

end Wiring

end PinTable
