import PinTable.Proofs.Listing.ArraySymbols
import PinTable.Proofs.Listing.Identifiers
import PinTable.Proofs.Listing.Initialization
import PinTable.Proofs.OwnedPins

set_option autoImplicit false

namespace PinTable

/-- Points become underscores, which leaves just the names without points as they are. -/
theorem deviceSymbol_eq_iff (base : String) (kind : PinKind) (name : String) :
    deviceSymbol base (kind.name ++ "." ++ name) =
      QualifiedPin.busDeviceSymbol ⟨base, kind, name⟩ ↔ '.' ∉ name.toList := by
  have symbol : QualifiedPin.busDeviceSymbol ⟨base, kind, name⟩ =
      base ++ "_device_" ++ (kind.name ++ "_" ++ name) := by
    simp only [QualifiedPin.busDeviceSymbol, String.append_assoc]
  have plain : kind.name.toList.map (fun c => if c = '.' then '_' else c) = kind.name.toList := by
    cases kind <;> decide
  have point : ".".toList.map (fun c => if c = '.' then '_' else c) = "_".toList := rfl
  rw [deviceSymbol, symbol, String.append_right_inj, ← String.toList_inj, String.toList_map]
  simp only [String.toList_append, List.map_append, plain, point, List.append_cancel_left_eq]
  -- What is left is that replacing points does not change the name.
  constructor
  · intro same member
    have unchanged := List.map_inj_left.1 (same.trans (List.map_id _).symm) '.' member
    cases unchanged
  · intro free
    have other : ∀ c ∈ name.toList, c ≠ '.' := by
      rintro _ member rfl
      exact free member
    exact (List.map_congr_left fun c member => if_neg (other c member)).trans (List.map_id _)

/-- Behind a base name, the symbol of a chip tells its kind and its name. -/
theorem QualifiedPin.busDeviceSymbol_inj {pin other : QualifiedPin} (base : pin.base = other.base)
    (same : pin.busDeviceSymbol = other.busDeviceSymbol) : pin = other := by
  obtain ⟨pinBase, kind, name⟩ := pin
  obtain ⟨otherBase, otherKind, otherName⟩ := other
  subst base
  simp only [busDeviceSymbol, String.append_assoc, String.append_right_inj] at same
  simp only [← String.append_assoc] at same
  obtain ⟨kinds, names⟩ := PinKind.name_append_inj same
  rw [kinds, names]

namespace Listing

open Reading
open Device (Connection)

theorem exists_rowLine_mem {table : DeviceTable} {row : Row} (isRow : row ∈ table.rows) :
    ∃ last, rowLine last row ∈ deviceSource table := by
  obtain ⟨group, isGroup, isHere⟩ := List.mem_flatMap.1 isRow
  obtain ⟨last, isLine⟩ := exists_mem_mapLast rowLine isHere
  obtain ⟨lastGroup, isPart⟩ := exists_mem_mapLast groupLines isGroup
  have inGroup : rowLine last row ∈ groupLines lastGroup group :=
    List.mem_append_left _ (List.mem_append_right _ isLine)
  have inTable : rowLine last row ∈ tableLines table :=
    List.mem_append_right _ (mem_aggregate_of_mem isPart _ inGroup)
  simp only [deviceSource, List.mem_append]
  exact ⟨last, .inl (.inl (.inl (.inr inTable)))⟩

/-- The line of a row that refers to a chip has the pointer between its signal and its interrupt. -/
theorem rowLine_of_device {row : Row} {symbol : String} (refers : row.device = some symbol)
    (last : Bool) : ∃ front, rowLine last row =
      front ++ " PINS_DEVCONF_PTR(" ++ symbol ++ ") " ++ interruptPointer row ++ "\x7d" ++
        commaUnless last ++ " /* " ++ row.pin.name ++ " */" := by
  have opening : " PINS_DEVCONF_PTR(" = " " ++ "PINS_DEVCONF_PTR(" := rfl
  have closing : ") " = ")" ++ " " := rfl
  refine ⟨rowStart ++ (commaList (readingOf row).entries ++
    (", " ++ row.signal.getD nullReference)), ?_⟩
  rw [rowLine_eq, rowEnding, devicePointer, refers, opening, closing]
  simp only [String.append_assoc]

/-- The record of a chip, between whose references to its pin and to its driver stand those to its
bus and to the chip before it on the bus. -/
def chipDefinition (pin : QualifiedPin) (driver bus next : String) : String :=
  recordLine "PinsBusDevice"
    ⟨pin.busDeviceSymbol, pin.address :: bus :: next :: heldEntries driver⟩

theorem chip_defined {calls : List Connection} (call : Connection) (isCall : call ∈ calls) :
    ∃ bus next, chipDefinition call.pin call.driver bus next ∈ (busBlock calls).source := by
  obtain ⟨chip, isChip, connects⟩ :=
    exists_of_forall₂ (Wiring.follows_connectAll calls).connects isCall
  have line : recordLine "PinsBusDevice" (chipRecord (Wiring.empty.connectAll calls) chip) ∈
      (busBlock calls).source := by
    rw [busBlock, ending, busSource_eq]
    simp only [List.mem_append]
    exact .inl (.inl (.inl (.inr (List.mem_map_of_mem (List.mem_map_of_mem isChip)))))
  rw [chipRecord, Chip.symbol, connects.pin, connects.driver] at line
  exact ⟨_, _, line⟩

/-- A row refers to a chip by the symbol under which the chip is defined and declared. -/
structure RefersTo (files : Block) (row : Row) (chip : DrivenPin) : Prop where
  pointer : ∃ last front, rowLine last row ∈ files.source ∧ rowLine last row =
    front ++ " PINS_DEVCONF_PTR(" ++ chip.qualified.busDeviceSymbol ++ ") " ++
      interruptPointer row ++ "\x7d" ++ commaUnless last ++ " /* " ++ row.pin.name ++ " */"
  defined : ∃ bus next, chipDefinition chip.qualified chip.driver bus next ∈ files.source
  declared : "extern PinsBusDevice " ++ chip.qualified.busDeviceSymbol ++ ";" ∈ files.header

section Files

variable (guard : String) (signals : SignalIndex) (manifests : List Manifest)

/-- A pin refers to a chip of its device by kind and name, wherever both stand and whatever other
devices there are. No other chip of the base name has the symbol of that chip. -/
theorem chip_references_resolved (device : Device)
    (isDevice : device ∈ manifests.flatMap Manifest.devices)
    (chip : DrivenPin) (isChip : chip ∈ device.driven) (plain : '.' ∉ chip.pin.name.toList)
    (user : OwnedPin) (row : Row)
    (isRow : (user, row) ∈ device.owned.zip (DeviceTable.ofDevice signals device).rows)
    (refers : user.pin.device = some (chip.kind.name ++ "." ++ chip.pin.name)) :
    RefersTo (ofManifests guard signals manifests) row chip ∧
    ∀ other ∈ (manifests.flatMap Manifest.devices).flatMap Device.driven,
      other.base = chip.base →
        other.qualified.busDeviceSymbol = chip.qualified.busDeviceSymbol →
          other.kind = chip.kind ∧ other.pin.name = chip.pin.name := by
  obtain ⟨isUser, isHere⟩ := List.of_mem_zip isRow
  have base : user.base = chip.base := by
    rw [Device.base_of_mem_owned isUser,
      Device.base_of_mem_owned (Device.owned_of_mem_driven isChip)]
  have isCall : chip.connection ∈
      (manifests.flatMap Manifest.devices).flatMap Device.connections := by
    refine List.mem_flatMap.2 ⟨device, isDevice, ?_⟩
    rw [← device.map_connection_driven]
    exact List.mem_map_of_mem isChip
  refine ⟨?_, ?_⟩
  · constructor
    case pointer =>
      have has := List.forall₂_zip (DeviceTable.hasRow_each signals device) isRow
      have reference : row.device = some chip.qualified.busDeviceSymbol := by
        rw [has.device, refers, base, Option.map_some, (deviceSymbol_eq_iff _ _ _).2 plain]
        rfl
      obtain ⟨last, isLine⟩ := exists_rowLine_mem isHere
      obtain ⟨front, shown⟩ := rowLine_of_device reference last
      exact ⟨last, front, mem_source_of_device guard signals manifests isDevice isLine, shown⟩
    case defined =>
      obtain ⟨bus, next, isLine⟩ := chip_defined chip.connection isCall
      exact ⟨bus, next, mem_source_of_buses guard signals manifests isLine⟩
    case declared =>
      exact mem_header_of_buses guard signals manifests (chip_declared chip.connection isCall)
  · intro other _ sameBase sameSymbol
    have equal := QualifiedPin.busDeviceSymbol_inj sameBase sameSymbol
    exact ⟨congrArg QualifiedPin.kind equal, congrArg QualifiedPin.name equal⟩

end Files

/-- A pin that refers to the converter behind it. -/
def pinOfConverter : OwnedPin :=
  ⟨"pins", .inputs, ⟨"ready", 0, 0, none, none, some "analog_inputs.adc_1", [], .root "io.json"⟩⟩

def converter : DrivenPin :=
  ⟨⟨"pins", .analogInputs, ⟨"adc_1", 0, 0, none, some "ads1115", none, [], .root "io.json"⟩⟩,
    "ads1115"⟩

def deviceOfConverter : Device :=
  ⟨"board", "pins", [⟨.inputs, [pinOfConverter.pin], .root "io.json"⟩,
    ⟨.analogInputs, [converter.pin], .root "io.json"⟩], .root "io.json"⟩

/-- Another device of the base name has a chip of a similar name, and stands in front. -/
def manifestsOfConverter : List Manifest :=
  [⟨[⟨"extension", "pins", [⟨.inputs, [⟨"adc_1", 0, 0, none, some "ads1115", none, [],
    .root "more.json"⟩], .root "more.json"⟩], .root "more.json"⟩]⟩, ⟨[deviceOfConverter]⟩]

theorem chip_references_resolved_manifestsOfConverter :
    let row := DeviceTable.rowOf .empty "pins" .inputs pinOfConverter.pin none
    deviceOfConverter ∈ manifestsOfConverter.flatMap Manifest.devices ∧
    converter ∈ deviceOfConverter.driven ∧
    (pinOfConverter, row) ∈
      deviceOfConverter.owned.zip (DeviceTable.ofDevice .empty deviceOfConverter).rows ∧
    devicePointer row = "PINS_DEVCONF_PTR(pins_device_analog_inputs_adc_1)" ∧
    RefersTo (ofManifests "PINS_H_" .empty manifestsOfConverter) row converter := by
  intro row
  have isDevice : deviceOfConverter ∈ manifestsOfConverter.flatMap Manifest.devices :=
    List.mem_cons_of_mem _ List.mem_cons_self
  have isChip : converter ∈ deviceOfConverter.driven := List.mem_cons_self
  have isRow : (pinOfConverter, row) ∈
      deviceOfConverter.owned.zip (DeviceTable.ofDevice .empty deviceOfConverter).rows :=
    List.mem_cons_self
  obtain ⟨reaches, -⟩ := chip_references_resolved "PINS_H_" .empty manifestsOfConverter
    deviceOfConverter isDevice converter isChip (by decide) pinOfConverter row isRow rfl
  exact ⟨isDevice, isChip, isRow, by decide +kernel, reaches⟩

end Listing

end PinTable
