import PinTable.Proofs.DeviceTable
import PinTable.Proofs.Manifest.Sequence
import PinTable.Proofs.Wiring

set_option autoImplicit false

namespace PinTable

open Device (Connection)

/-- A pin with the base name of its device and the kind of its group. -/
structure OwnedPin where
  base : String
  kind : PinKind
  pin : Pin

namespace OwnedPin

def qualified (owned : OwnedPin) : QualifiedPin := ⟨owned.base, owned.kind, owned.pin.name⟩

def settings (owned : OwnedPin) : Settings := Settings.ofPin owned.kind owned.pin

/-- What a row takes over from its pin alone. -/
structure HasRow (owned : OwnedPin) (row : Row) : Prop where
  pin : row.pin = owned.qualified
  settings : row.settings = owned.settings
  device : row.device = owned.pin.device.map (deviceSymbol owned.base)

end OwnedPin

/-- A pin that has a driver. -/
structure DrivenPin extends OwnedPin where
  driver : String

/-- The clock line of a pin: the integer of its first attribute `sclk`, or zero. -/
def Pin.clockTold (pin : Pin) : Int :=
  match pin.attributes.find? fun entry => entry.key == "sclk" with
  | some entry => entry.value.integerLike?.getD 0
  | none => 0

theorem Device.clockOf_eq_clockTold (pin : Pin) : clockOf pin = pin.clockTold := by
  rw [clockOf, Pin.attributeAt?, Pin.clockTold, Parameter.key]
  cases pin.attributes.find? fun entry => entry.key == "sclk" <;> rfl

namespace DrivenPin

/-- The bus of the chip behind a pin: pins of one base name, kind and clock line share it. -/
def busId (driven : DrivenPin) : BusId := ⟨driven.base, driven.kind, driven.pin.clockTold⟩

def connection (driven : DrivenPin) : Connection :=
  ⟨driven.qualified, driven.driver, Device.clockOf driven.pin⟩

theorem busId_connection (driven : DrivenPin) : driven.connection.busId = driven.busId := by
  rw [Connection.busId, connection, Device.clockOf_eq_clockTold]
  rfl

end DrivenPin

namespace Device

def owned (device : Device) : List OwnedPin :=
  device.groups.flatMap fun group => group.pins.map fun pin => ⟨device.base, group.kind, pin⟩

def driven (device : Device) : List DrivenPin :=
  device.owned.filterMap fun owned => owned.pin.driver.map fun driver => ⟨owned, driver⟩

theorem mem_owned_iff (device : Device) (owned : OwnedPin) : owned ∈ device.owned ↔
    ∃ group ∈ device.groups, ∃ pin ∈ group.pins, owned = ⟨device.base, group.kind, pin⟩ := by
  simp only [Device.owned, List.mem_flatMap, List.mem_map, eq_comm]

theorem base_of_mem_owned {device : Device} {owned : OwnedPin} (member : owned ∈ device.owned) :
    owned.base = device.base := by
  obtain ⟨_, _, _, _, rfl⟩ := (device.mem_owned_iff owned).1 member
  rfl

theorem mem_driven_iff (device : Device) (driven : DrivenPin) : driven ∈ device.driven ↔
    ∃ group ∈ device.groups, ∃ pin ∈ group.pins, pin.driver = some driven.driver ∧
      driven.toOwnedPin = ⟨device.base, group.kind, pin⟩ := by
  simp only [Device.driven, List.mem_filterMap, mem_owned_iff]
  constructor
  · rintro ⟨_, ⟨group, isGroup, pin, isPin, rfl⟩, made⟩
    obtain ⟨driver, isDriver, rfl⟩ := Option.map_eq_some_iff.1 made
    exact ⟨group, isGroup, pin, isPin, isDriver, rfl⟩
  · rintro ⟨group, isGroup, pin, isPin, isDriver, same⟩
    refine ⟨_, ⟨group, isGroup, pin, isPin, rfl⟩, Option.map_eq_some_iff.2 ⟨_, isDriver, ?_⟩⟩
    rw [← same]

theorem owned_of_mem_driven {device : Device} {driven : DrivenPin}
    (member : driven ∈ device.driven) : driven.toOwnedPin ∈ device.owned := by
  obtain ⟨group, isGroup, pin, isPin, _, same⟩ := (device.mem_driven_iff driven).1 member
  exact (device.mem_owned_iff _).2 ⟨group, isGroup, pin, isPin, same⟩

/-- The chips of a device are its pins with drivers. -/
theorem map_connection_driven (device : Device) :
    device.driven.map DrivenPin.connection = device.connections := by
  rw [driven, owned, connections, List.filterMap_flatMap, List.map_flatMap]
  refine List.flatMap_congr fun group _ => ?_
  rw [List.filterMap_map, List.map_filterMap]
  refine List.filterMap_congr fun pin _ => ?_
  rw [Function.comp, Option.map_map, connection?]
  rfl

/-- Behind every chip of a device is one of its pins. -/
theorem exists_pin_of_mem_connections {device : Device} {call : Connection}
    (member : call ∈ device.connections) :
    ∃ group ∈ device.groups, ∃ pin ∈ group.pins, pin.driver = some call.driver ∧
      call.pin = ⟨device.base, group.kind, pin.name⟩ := by
  rw [← device.map_connection_driven] at member
  obtain ⟨driven, isDriven, rfl⟩ := List.mem_map.1 member
  obtain ⟨group, isGroup, pin, isPin, isDriver, same⟩ := (device.mem_driven_iff driven).1 isDriven
  refine ⟨group, isGroup, pin, isPin, isDriver, ?_⟩
  rw [DrivenPin.connection, OwnedPin.qualified, same]

theorem map_connection_flatMap_driven (devices : List Device) :
    (devices.flatMap driven).map DrivenPin.connection = devices.flatMap connections := by
  rw [List.map_flatMap]
  exact List.flatMap_congr fun device _ => device.map_connection_driven

end Device

/-- The rows of a device are those of its pins. -/
theorem DeviceTable.hasRow_each (signals : SignalIndex) (device : Device) :
    List.Forall₂ OwnedPin.HasRow device.owned (ofDevice signals device).rows := by
  have groups := map_groupsOf signals device.base (fun row => (row.pin, row.settings, row.device))
    (fun kind pin => (⟨device.base, kind, pin.name⟩, Settings.ofPin kind pin,
      pin.device.map (deviceSymbol device.base))) (fun _ _ _ => rfl) device.groups TagChains.empty
  have rows := congrArg (List.flatMap Prod.snd) groups
  simp only [List.flatMap_map] at rows
  have each : device.owned.map (fun owned => (owned.qualified, owned.settings,
        owned.pin.device.map (deviceSymbol owned.base))) =
      (ofDevice signals device).rows.map fun row => (row.pin, row.settings, row.device) := by
    rw [DeviceTable.rows, List.map_flatMap, Device.owned, List.map_flatMap]
    refine Eq.trans (List.flatMap_congr fun group _ => ?_) rows.symm
    rw [List.map_map]
    rfl
  refine (forall₂_of_map_eq each).imp fun owned row same => ?_
  obtain ⟨pin, others⟩ := Prod.mk.inj same
  obtain ⟨settings, chip⟩ := Prod.mk.inj others
  exact ⟨pin.symm, settings.symm, chip.symm⟩

end PinTable
