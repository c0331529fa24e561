import PinTable.Manifest.Basic
import PinTable.Settings
import PinTable.Signal.Index
import PinTable.TagChains

set_option autoImplicit false

namespace PinTable

/-- The record of a pin. -/
structure Row where
  pin : QualifiedPin
  bank : Int
  addr : Int
  settings : Settings
  /-- The pin before this one in the list of its tag. -/
  next : Option QualifiedPin
  /-- The tag, if this is its first pin. -/
  newTag : Option String
  signal : Option String
  /-- The chip that the pin belongs to. -/
  device : Option String
  deriving DecidableEq, Repr

structure GroupTable where
  kind : PinKind
  rows : List Row
  deriving DecidableEq, Repr

structure DeviceTable where
  title : String
  base : String
  groups : List GroupTable
  tags : TagChains

namespace Row

/-- The constants that a pin introduces: its own, and that of its tag if the tag is new. -/
def constants (row : Row) : List NameConstant :=
  match row.newTag with
  | none => [NameConstant.ofPin row.pin]
  | some tag => [NameConstant.ofPin row.pin, NameConstant.ofTag row.pin.base tag]

end Row

namespace DeviceTable

/-- The lists of pins by tag after one more pin, and what linking the pin tells. A pin without a tag
is on no list. -/
def linkPin (base : String) (kind : PinKind) (tags : TagChains) (pin : Pin) :
    TagChains × Option Linked :=
  match pin.tag with
  | none => (tags, none)
  | some tag =>
      let (after, linked) := tags.link tag ⟨base, kind, pin.name⟩
      (after, some linked)

/-- The record of a pin, given what linking it tells. -/
def rowOf (signals : SignalIndex) (base : String) (kind : PinKind) (pin : Pin)
    (linked : Option Linked) : Row :=
  { pin := ⟨base, kind, pin.name⟩
    bank := pin.bank
    addr := pin.addr
    settings := Settings.ofPin kind pin
    next := linked.bind Linked.next
    newTag := if linked.any Linked.first then pin.tag else none
    signal := signals.referenceTo? pin.name
    device := pin.device.map (deviceSymbol base) }

/-- The records of pins in order, and the lists of pins by tag after them. -/
def rowsOf (signals : SignalIndex) (base : String) (kind : PinKind) :
    TagChains → List Pin → List Row × TagChains
  | tags, [] => ([], tags)
  | tags, pin :: rest =>
      let (linkedTags, linked) := linkPin base kind tags pin
      let (rows, after) := rowsOf signals base kind linkedTags rest
      (rowOf signals base kind pin linked :: rows, after)

/-- The tables of groups in order, and the lists of pins by tag after them. -/
def groupsOf (signals : SignalIndex) (base : String) :
    TagChains → List PinGroup → List GroupTable × TagChains
  | tags, [] => ([], tags)
  | tags, group :: rest =>
      let (rows, linkedTags) := rowsOf signals base group.kind tags group.pins
      let (tables, after) := groupsOf signals base linkedTags rest
      (⟨group.kind, rows⟩ :: tables, after)

def ofDevice (signals : SignalIndex) (device : Device) : DeviceTable :=
  let (groups, tags) := groupsOf signals device.base TagChains.empty device.groups
  { title := uppercase device.name
    base := device.base
    groups := groups
    tags := tags }

def rows (table : DeviceTable) : List Row := table.groups.flatMap GroupTable.rows

/-- The constants of a device, in the order of its pins. -/
def constants (table : DeviceTable) : List NameConstant := table.rows.flatMap Row.constants

end DeviceTable

namespace Device

/-- The address of the clock line of a pin: the integer of its attribute, or zero. -/
def clockOf (pin : Pin) : Int :=
  ((pin.attributeAt? Parameter.sclk.key).bind Json.integerLike?).getD 0

/-- A chip that a device connects: its pin, its driver and its clock line. -/
structure Connection where
  pin : QualifiedPin
  driver : String
  clock : Int
  deriving DecidableEq, Repr

/-- The chip behind a pin, if the pin has a driver. -/
def connection? (base : String) (kind : PinKind) (pin : Pin) : Option Connection :=
  pin.driver.map fun driver => ⟨⟨base, kind, pin.name⟩, driver, clockOf pin⟩

/-- The chips of a device, in the order of their pins. -/
def connections (device : Device) : List Connection :=
  device.groups.flatMap fun group => group.pins.filterMap (connection? device.base group.kind)

end Device

end PinTable
