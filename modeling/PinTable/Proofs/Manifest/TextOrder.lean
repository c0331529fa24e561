import PinTable.Proofs.DeviceTable
import PinTable.Proofs.Json.RoundTrip
import PinTable.Proofs.Listing.Blocks
import PinTable.Proofs.Manifest.Notices
import PinTable.Proofs.Manifest.Origin

set_option autoImplicit false

namespace PinTable

open Entries (find?)

/-- The groups of a device in order, each with its kind and its pins in order, and with what is told
of a pin beside its name. -/
abbrev Outline (α : Type) : Type := List (String × List (String × α))

namespace Json

/-- The name that an object gives itself. -/
def ownName : Json → String
  | object entries =>
      match find? "name" entries with
      | some (string name) => name
      | _ => ""
  | _ => ""

/-- The entries of a pin that do not place it. -/
def attributeEntries : Json → Entries Json
  | object entries => entries.filter fun entry => entry.1 ∉ structuralKeys
  | _ => []

/-- The groups of known kind of a device. -/
def groupOutline (device : Json) : Outline (Entries Json) :=
  ((device.itemsUnder "groups").filter isGroupOfKind).map fun group =>
    (group.ownName, (group.itemsUnder "pins").map fun pin => (pin.ownName, pin.attributeEntries))

/-- The devices of a document by their names, in the order of the text. -/
def outline (root : Json) : List (String × Outline (Entries Json)) :=
  (root.itemsUnder "io").map fun device => (device.deviceName, device.groupOutline)

end Json

def Device.outline {α : Type} (told : PinKind → Pin → α) (device : Device) : Outline α :=
  device.groups.map fun group =>
    (group.kind.name, group.pins.map fun pin => (pin.name, told group.kind pin))

/-- The attributes of a pin as entries. -/
def Pin.entries (pin : Pin) : Entries Json :=
  pin.attributes.map fun entry => (entry.key, entry.value)

def Manifest.outline (manifest : Manifest) : List (String × Outline (Entries Json)) :=
  manifest.devices.map fun device => (device.name, device.outline fun _ pin => pin.entries)

/-- The groups of a table, each with the settings of its rows. -/
def DeviceTable.outline (table : DeviceTable) : Outline Settings :=
  table.groups.map fun group =>
    (group.kind.name, group.rows.map fun row => (row.pin.name, row.settings))

theorem Pin.entries_of_decode {device : String} {kind : PinKind} {place : Location} {value : Json}
    {pin : Pin} (decoded : Pin.decode device kind place value = .ok pin) :
    (value.ownName, value.attributeEntries) = (pin.name, pin.entries) := by
  obtain ⟨object, rfl, -, fields⟩ := (Pin.decode_eq_ok_iff ..).1 decoded
  rw [Json.ownName, fields.name, Json.attributeEntries, Pin.entries, fields.attributes]

theorem PinGroup.outline_of_decode {device : String} {place : Location} {value : Json}
    {group : PinGroup} (decoded : (PinGroup.decode device place value).result = .ok (some group)) :
    (value.ownName, (value.itemsUnder "pins").map fun pin => (pin.ownName, pin.attributeEntries)) =
      (group.kind.name, group.pins.map fun pin => (pin.name, pin.entries)) := by
  obtain ⟨object, kindName, rfl, named, ⟨-, missing⟩ | ⟨kind, same, known, isGroup, isResult⟩⟩ :=
    (PinGroup.decode_eq_ok_iff ..).1 decoded
  · cases missing
  · cases isResult
    obtain ⟨items, found, arePins, rfl, -⟩ := (PinGroup.decodePins_eq_ok_iff ..).1 isGroup
    rw [Json.ownName, named, Json.itemsUnder_object found, PinKind.name_of_ofName? _ _ known]
    refine congrArg (kindName, ·) (map_eq_of_forall₂ (arePins.unplaced.imp ?_))
    rintro item pin ⟨position, isPin⟩
    exact Pin.entries_of_decode isPin

theorem Device.outline_of_decode {place : Location} {value : Json} {device : Device}
    (decoded : (Device.decode place value).result = .ok device) :
    (value.deviceName, value.groupOutline) =
      (device.name, device.outline fun _ pin => pin.entries) := by
  obtain ⟨object, items, results, rfl, names, found, areGroups, kept, -⟩ :=
    (Device.decode_eq_ok_iff ..).1 decoded
  rw [Json.deviceName_object names.name, Json.groupOutline, Json.itemsUnder_object found,
    Device.outline, kept]
  have counted := forall₂_filterMap_id _ Json.isGroupOfKind _ _
    (fun item result given => PinGroup.isSome_decode device.name item result given.choose_spec)
    areGroups.unplaced
  refine congrArg (device.name, ·) (map_eq_of_forall₂ (counted.imp ?_))
  rintro item group ⟨position, isGroup⟩
  exact PinGroup.outline_of_decode isGroup

theorem Manifest.outline_of_decode {place : Location} {value : Json} {manifest : Manifest}
    (decoded : (Manifest.decode place value).result = .ok manifest) :
    manifest.outline = value.outline := by
  obtain ⟨object, items, rfl, found, areDevices⟩ := (Manifest.decode_eq_ok_iff ..).1 decoded
  rw [Json.outline, Json.itemsUnder_object found]
  refine (map_eq_of_forall₂ (areDevices.unplaced.imp ?_)).symm
  rintro item device ⟨position, isDevice⟩
  exact Device.outline_of_decode isDevice

/-- The rows of a device's table, with the settings that the attributes of each pin amount to. -/
theorem DeviceTable.outline_ofDevice (signals : SignalIndex) (device : Device) :
    (ofDevice signals device).outline = device.outline Settings.ofPin := by
  have groups := map_groupsOf signals device.base (fun row => (row.pin.name, row.settings))
    (fun kind pin => (pin.name, Settings.ofPin kind pin)) (fun _ _ _ => rfl) device.groups
    TagChains.empty
  have named := congrArg (List.map fun group => (group.1.name, group.2)) groups
  simp only [List.map_map, Function.comp_def] at named
  exact named

/-- What is made of a document stands in the order of the document: the records of its manifest, the
rows of their tables, and the texts of its devices in both files. -/
structure FollowsOrder (document : Json) (manifest : Manifest) : Prop where
  records : manifest.outline = document.outline
  tables : ∀ signals, ∀ device ∈ manifest.devices,
    (DeviceTable.ofDevice signals device).outline = device.outline Settings.ofPin
  files : ∀ guard signals, Listing.MadeOf guard
    (manifest.devices.map (Listing.deviceTexts signals))
    (manifest.devices.flatMap Device.connections) (Listing.ofManifests guard signals [manifest])

theorem followsOrder_of_decode {place : Location} {document : Json} {manifest : Manifest}
    (decoded : (Manifest.decode place document).result = .ok manifest) :
    FollowsOrder document manifest := by
  refine ⟨Manifest.outline_of_decode decoded,
    fun signals device _ => DeviceTable.outline_ofDevice signals device, fun guard signals => ?_⟩
  have files := Listing.madeOf_ofManifests guard signals [manifest]
  simpa only [List.flatMap_singleton] using files

/-- An object that repeats a key. -/
def repeatedKey : Json :=
  .object [("a", .bool true), ("b", .array [.null, .number (.integer (-7) (by decide) (by decide))]),
    ("a", .string "\n😀")]

/-- A text of it, with white space and escapes. -/
def textOfRepeatedKey : List Char :=
  "\x7b\"a\":true,\"b\" :[null ,-7],\"\\u0061\":\"\\n\\uD83D\\uDe00\"\x7d\n".toList

theorem written_repeatedKey : Json.WrittenDocument repeatedKey textOfRepeatedKey := by
  have none := Json.spaces_nil
  have blank : Json.Spaces [' '] := List.forall_mem_singleton.2 (.head _)
  have line : Json.Spaces ['\n'] := List.forall_mem_singleton.2 (by decide)
  -- The strings: both keys, the first once more as an escape, and the last value.
  have a : Quoted.CharText 'a' ['a'] := .plain (by decide) (by decide) (by decide)
  have b : Quoted.CharText 'b' ['b'] := .plain (by decide) (by decide) (by decide)
  have unit := @Quoted.UnitText.digits 0 0 6 1 '0' '0' '6' '1' (.inl rfl) (.inl rfl) (.inl rfl)
    (.inl rfl)
  have newline : Quoted.CharText '\n' ['\\', 'n'] := .short (by decide)
  have leading := @Quoted.UnitText.digits 0xD 8 3 0xD 'D' '8' '3' 'D' (.inr rfl) (.inr rfl)
    (.inr rfl) (.inr rfl)
  have trailing := @Quoted.UnitText.digits 0xD 0xE 0 0 'D' 'e' '0' '0' (.inr rfl) (.inl rfl)
    (.inl rfl) (.inl rfl)
  have first := Quoted.stringText_ofList (.cons a .nil)
  have second := Quoted.stringText_ofList (.cons b .nil)
  have third := Quoted.stringText_ofList (.cons (.unit (c := 'a') unit) .nil)
  have content := Quoted.stringText_ofList
    (.cons newline (.cons (.pair (c := '😀') (by decide) leading trailing) .nil))
  -- The array.
  have digits : (intText (-7)).toList = ['-', '7'] := by
    simp [intText, natText, decimalDigits, digitChar]
  have negative := Json.written_of_scalarText 125 (.integer (-7) (by decide) (by decide))
  rw [digits] at negative
  have array : Json.Written 126 (.array _) _ := .inr (.array (.more
    (.around none (Json.written_of_scalarText 125 .null) blank)
    (.last (.around none negative none))))
  -- The entries.
  have around {entry : String × Json} {text : List Char}
      (written : Json.EntryText (Json.Written 126) entry text) :
      Json.Spaced (Json.EntryText (Json.Written 126)) entry text := by
    simpa using Json.Spaced.around none written none
  have entries := Json.Series.more
    (around (.entry first none none (Json.written_of_scalarText 126 .true)))
    (.more (around (.entry second blank none array))
      (.last (around (.entry third none none (Json.written_of_scalarText 126 (.string content))))))
  have object : Json.Written 127 repeatedKey _ := .inr (.object entries)
  exact .around none object line

end PinTable
