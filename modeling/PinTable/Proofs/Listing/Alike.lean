import Mathlib.Data.List.Forall2
import PinTable.Proofs.Listing.Blocks

set_option autoImplicit false

namespace PinTable

/-- Pins of which the files show the same. -/
structure Pin.Alike (pin other : Pin) : Prop where
  name : other.name = pin.name
  bank : other.bank = pin.bank
  addr : other.addr = pin.addr
  tag : other.tag = pin.tag
  driver : other.driver = pin.driver
  device : other.device = pin.device
  settings : Settings.ofAttributes other = Settings.ofAttributes pin
  clock : Device.clockOf other = Device.clockOf pin

structure PinGroup.Alike (group other : PinGroup) : Prop where
  kind : other.kind = group.kind
  pins : List.Forall₂ Pin.Alike group.pins other.pins

structure Device.Alike (device other : Device) : Prop where
  name : other.name = device.name
  base : other.base = device.base
  groups : List.Forall₂ PinGroup.Alike device.groups other.groups

def Manifest.Alike (manifest other : Manifest) : Prop :=
  List.Forall₂ Device.Alike manifest.devices other.devices

namespace DeviceTable

variable (signals : SignalIndex) (base : String) (kind : PinKind) (tags : TagChains)

theorem linkPin_alike {pin other : Pin} (alike : pin.Alike other) :
    linkPin base kind tags other = linkPin base kind tags pin := by
  simp only [linkPin, alike.tag, alike.name]

theorem rowOf_alike {pin other : Pin} (alike : pin.Alike other) (linked : Option Linked) :
    rowOf signals base kind other linked = rowOf signals base kind pin linked := by
  simp only [rowOf, Settings.ofPin, alike.name, alike.bank, alike.addr, alike.settings, alike.tag,
    alike.device]

theorem rowsOf_alike {pins others : List Pin} (alike : List.Forall₂ Pin.Alike pins others) :
    rowsOf signals base kind tags others = rowsOf signals base kind tags pins := by
  induction alike generalizing tags with
  | nil => rfl
  | cons first _ ih =>
      simp only [rowsOf, linkPin_alike base kind tags first, rowOf_alike signals base kind first, ih]

theorem groupsOf_alike {groups others : List PinGroup}
    (alike : List.Forall₂ PinGroup.Alike groups others) :
    groupsOf signals base tags others = groupsOf signals base tags groups := by
  induction alike generalizing tags with
  | nil => rfl
  | cons first _ ih =>
      simp only [groupsOf, first.kind, rowsOf_alike signals base _ tags first.pins, ih]

theorem ofDevice_alike {device other : Device} (alike : device.Alike other) :
    ofDevice signals other = ofDevice signals device := by
  simp only [ofDevice, alike.name, alike.base, groupsOf_alike signals _ _ alike.groups]

end DeviceTable

namespace Device

variable (base : String)

theorem connection?_alike (kind : PinKind) {pin other : Pin} (alike : pin.Alike other) :
    connection? base kind other = connection? base kind pin := by
  simp only [connection?, alike.name, alike.driver, alike.clock]

theorem connections_pins_alike (kind : PinKind) {pins others : List Pin}
    (alike : List.Forall₂ Pin.Alike pins others) :
    others.filterMap (connection? base kind) = pins.filterMap (connection? base kind) := by
  induction alike with
  | nil => rfl
  | cons first _ ih => simp only [List.filterMap_cons, connection?_alike base kind first, ih]

theorem connections_groups_alike {groups others : List PinGroup}
    (alike : List.Forall₂ PinGroup.Alike groups others) :
    (others.flatMap fun group => group.pins.filterMap (connection? base group.kind)) =
      groups.flatMap fun group => group.pins.filterMap (connection? base group.kind) := by
  induction alike with
  | nil => rfl
  | cons first _ ih =>
      simp only [List.flatMap_cons, first.kind, connections_pins_alike base _ first.pins, ih]

theorem connections_alike {device other : Device} (alike : device.Alike other) :
    other.connections = device.connections := by
  simp only [connections, alike.base, connections_groups_alike device.base alike.groups]

end Device

namespace Listing

theorem deviceTexts_alike (signals : SignalIndex) {device other : Device}
    (alike : device.Alike other) : deviceTexts signals other = deviceTexts signals device := by
  simp only [deviceTexts, deviceBlock, Block.headerText, Block.sourceText,
    DeviceTable.ofDevice_alike signals alike]

section Devices

variable {devices others : List Device} (alike : List.Forall₂ Device.Alike devices others)

include alike

theorem map_deviceTexts_alike (signals : SignalIndex) :
    others.map (deviceTexts signals) = devices.map (deviceTexts signals) := by
  induction alike with
  | nil => rfl
  | cons first _ ih => rw [List.map_cons, List.map_cons, deviceTexts_alike signals first, ih]

theorem flatMap_connections_alike :
    others.flatMap Device.connections = devices.flatMap Device.connections := by
  induction alike with
  | nil => rfl
  | cons first _ ih =>
      rw [List.flatMap_cons, List.flatMap_cons, Device.connections_alike first, ih]

end Devices

/-- Manifests of which the files show the same give the same files. -/
theorem ofManifests_alike (guard : String) (signals : SignalIndex) {manifests others : List Manifest}
    (alike : List.Forall₂ Manifest.Alike manifests others) :
    (ofManifests guard signals others).headerText =
      (ofManifests guard signals manifests).headerText ∧
    (ofManifests guard signals others).sourceText =
      (ofManifests guard signals manifests).sourceText := by
  have devices : List.Forall₂ Device.Alike (manifests.flatMap Manifest.devices)
      (others.flatMap Manifest.devices) := List.rel_flatMap alike fun _ _ each => each
  have made := madeOf_ofManifests guard signals manifests
  have madeOthers := madeOf_ofManifests guard signals others
  simp only [map_deviceTexts_alike devices, flatMap_connections_alike devices] at madeOthers
  exact ⟨madeOthers.header.trans made.header.symm, madeOthers.source.trans made.source.symm⟩

end Listing

end PinTable
