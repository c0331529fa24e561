import Mathlib.Data.List.Basic
import PinTable.Listing.Draft
import PinTable.Proofs.Wiring

set_option autoImplicit false

namespace PinTable

open Device (Connection)

namespace Block

def joined (blocks : List Block) : Block :=
  ⟨blocks.flatMap header, blocks.flatMap source, blocks.flatMap events⟩

theorem append_joined_nil (block : Block) : block ++ joined [] = block := by
  show append block (joined []) = block
  simp only [append, joined, List.flatMap_nil, List.append_nil]

theorem append_joined_cons (written first : Block) (rest : List Block) :
    written ++ joined (first :: rest) = written ++ first ++ joined rest := by
  rw [append_assoc]
  rfl

theorem headerText_joined (blocks : List Block) :
    (joined blocks).headerText = String.join (blocks.map headerText) := by
  induction blocks with
  | nil => rfl
  | cons first rest ih =>
      rw [List.map_cons, String.join_cons, ← ih]
      exact headerText_append first (joined rest)

theorem sourceText_joined (blocks : List Block) :
    (joined blocks).sourceText = String.join (blocks.map sourceText) := by
  induction blocks with
  | nil => rfl
  | cons first rest ih =>
      rw [List.map_cons, String.join_cons, ← ih]
      exact sourceText_append first (joined rest)

end Block

theorem Event.warnings_flatMap {α : Type} (events : α → List Event) (items : List α) :
    Event.warnings (items.flatMap events) = items.flatMap fun item => Event.warnings (events item) :=
  List.filterMap_flatMap ..

/-- The warnings about the pins of a group, in order. -/
def PinGroup.warnings (group : PinGroup) : List Warning := group.pins.flatMap Pin.warnings

/-- The warnings about the pins of a device, in order. -/
def Device.warnings (device : Device) : List Warning := device.groups.flatMap PinGroup.warnings

namespace Listing

theorem warnings_groupEvents (group : PinGroup) :
    Event.warnings (groupEvents group) = group.warnings := by
  show Event.warnings (group.pins.flatMap _) = _
  simp only [Event.warnings_flatMap, Event.warnings_map_warned]
  rfl

theorem warnings_deviceEvents (device : Device) :
    Event.warnings (deviceEvents device) = device.warnings := by
  show Event.warnings (device.groups.flatMap groupEvents) = _
  simp only [Event.warnings_flatMap, warnings_groupEvents]
  rfl

section Run

variable (signals : SignalIndex) (devices : List Device) (draft : Draft)

theorem written_foldl_add :
    (devices.foldl (Draft.add signals) draft).written =
      draft.written ++ Block.joined (devices.map (deviceBlock signals)) := by
  induction devices generalizing draft with
  | nil => exact (Block.append_joined_nil draft.written).symm
  | cons device rest ih =>
      rw [List.foldl_cons, ih, List.map_cons, Block.append_joined_cons]
      rfl

theorem wiring_foldl_add :
    (devices.foldl (Draft.add signals) draft).wiring =
      draft.wiring.connectAll (devices.flatMap Device.connections) := by
  induction devices generalizing draft with
  | nil => rfl
  | cons device rest ih =>
      rw [List.foldl_cons, ih, List.flatMap_cons, Wiring.connectAll, Wiring.connectAll,
        List.foldl_append]
      rfl

end Run

/-- The buses are those of the chips of all devices. -/
theorem follows_foldl_add (guard : String) (signals : SignalIndex) (devices : List Device) :
    (devices.foldl (Draft.add signals) (Draft.begun guard)).wiring.Follows
      (devices.flatMap Device.connections) := by
  rw [wiring_foldl_add]
  exact Wiring.follows_connectAll _

/-- The block of the buses that chips share, for the chips in the order in which they are
connected. -/
def busBlock (calls : List Connection) : Block := ending (Wiring.empty.connectAll calls)

theorem ofManifests_eq (guard : String) (signals : SignalIndex) (manifests : List Manifest) :
    let devices := manifests.flatMap Manifest.devices
    ofManifests guard signals manifests =
      beginning guard ++ Block.joined (devices.map (deviceBlock signals)) ++
        Block.reporting (.debug "All devices emitted") ++
          busBlock (devices.flatMap Device.connections) := by
  simp only [ofManifests, Draft.begun, Draft.report, Draft.ended, written_foldl_add,
    wiring_foldl_add, busBlock]

/-- The blocks of both files that have lines. -/
def blocksOf (guard : String) (signals : SignalIndex) (devices : List Device) : List Block :=
  beginning guard :: busBlock (devices.flatMap Device.connections) ::
    devices.map (deviceBlock signals)

section Lines

variable (guard : String) (signals : SignalIndex) (manifests : List Manifest) (line : String)

/-- The lines of manifests are those of the blocks, in either file. -/
theorem mem_ofManifests (part : Block → List String)
    (append : ∀ first second, part (first ++ second) = part first ++ part second)
    (joined : ∀ blocks, part (Block.joined blocks) = blocks.flatMap part)
    (silent : ∀ event, part (Block.reporting event) = []) :
    line ∈ part (ofManifests guard signals manifests) ↔
      ∃ block ∈ blocksOf guard signals (manifests.flatMap Manifest.devices), line ∈ part block := by
  simp only [blocksOf, ofManifests_eq, append, joined, silent, List.append_nil, List.flatMap_map,
    List.mem_append, List.mem_flatMap, List.exists_mem_cons_iff, List.mem_map,
    exists_exists_and_eq_and]
  rw [or_assoc]
  exact or_congr_right or_comm

theorem mem_header_ofManifests :
    line ∈ (ofManifests guard signals manifests).header ↔
      ∃ block ∈ blocksOf guard signals (manifests.flatMap Manifest.devices),
        line ∈ block.header :=
  mem_ofManifests guard signals manifests line Block.header Block.header_append (fun _ => rfl)
    (fun _ => rfl)

theorem mem_source_ofManifests :
    line ∈ (ofManifests guard signals manifests).source ↔
      ∃ block ∈ blocksOf guard signals (manifests.flatMap Manifest.devices),
        line ∈ block.source :=
  mem_ofManifests guard signals manifests line Block.source Block.source_append (fun _ => rfl)
    (fun _ => rfl)

variable {line}

/-- What a device adds to the source is in the source. -/
theorem mem_source_of_device {device : Device}
    (isDevice : device ∈ manifests.flatMap Manifest.devices)
    (isLine : line ∈ (deviceBlock signals device).source) :
    line ∈ (ofManifests guard signals manifests).source :=
  (mem_source_ofManifests guard signals manifests line).2
    ⟨_, List.mem_cons_of_mem _ (List.mem_cons_of_mem _ (List.mem_map_of_mem isDevice)), isLine⟩

/-- What the buses add to the header is in the header. -/
theorem mem_header_of_buses
    (isLine : line ∈
      (busBlock ((manifests.flatMap Manifest.devices).flatMap Device.connections)).header) :
    line ∈ (ofManifests guard signals manifests).header :=
  (mem_header_ofManifests guard signals manifests line).2
    ⟨_, List.mem_cons_of_mem _ List.mem_cons_self, isLine⟩

/-- What the buses add to the source is in the source. -/
theorem mem_source_of_buses
    (isLine : line ∈
      (busBlock ((manifests.flatMap Manifest.devices).flatMap Device.connections)).source) :
    line ∈ (ofManifests guard signals manifests).source :=
  (mem_source_ofManifests guard signals manifests line).2
    ⟨_, List.mem_cons_of_mem _ List.mem_cons_self, isLine⟩

end Lines

theorem warnings_ofManifests (guard : String) (signals : SignalIndex) (manifests : List Manifest) :
    Event.warnings (ofManifests guard signals manifests).events =
      (manifests.flatMap Manifest.devices).flatMap Device.warnings := by
  have each (device : Device) : Event.warnings (deviceBlock signals device).events =
      device.warnings := warnings_deviceEvents device
  simp only [ofManifests_eq, Block.events_append, Event.warnings_append, Block.joined,
    List.flatMap_map, Event.warnings_flatMap, each]
  -- The beginning has no events, and what stands behind the devices only notes.
  exact (List.append_nil _).trans (List.append_nil _)

/-- What a device adds to the header and to the source. -/
def deviceTexts (signals : SignalIndex) (device : Device) : String × String :=
  ((deviceBlock signals device).headerText, (deviceBlock signals device).sourceText)

/-- A draft goes on with texts for both files and with warnings. -/
structure GoesOn (draft after : Draft) (texts : String × String) (warnings : List Warning) :
    Prop where
  header : after.written.headerText = draft.written.headerText ++ texts.1
  source : after.written.sourceText = draft.written.sourceText ++ texts.2
  warnings : Event.warnings after.written.events = Event.warnings draft.written.events ++ warnings

/-- Both files are their beginning, the texts of some devices in order, and the buses of chips. -/
structure MadeOf (guard : String) (texts : List (String × String)) (calls : List Connection)
    (files : Block) : Prop where
  header : files.headerText = (beginning guard).headerText ++ String.join (texts.map Prod.fst) ++
    (busBlock calls).headerText
  source : files.sourceText = (beginning guard).sourceText ++ String.join (texts.map Prod.snd) ++
    (busBlock calls).sourceText

theorem goesOn_add (signals : SignalIndex) (draft : Draft) (device : Device) :
    GoesOn draft (Draft.add signals draft device) (deviceTexts signals device) device.warnings := by
  constructor
  case header => rw [Draft.add, Block.headerText_append, deviceTexts]
  case source => rw [Draft.add, Block.sourceText_append, deviceTexts]
  case warnings =>
    rw [Draft.add, Block.events_append, Event.warnings_append, deviceBlock, warnings_deviceEvents]

theorem madeOf_ofManifests (guard : String) (signals : SignalIndex) (manifests : List Manifest) :
    let devices := manifests.flatMap Manifest.devices
    MadeOf guard (devices.map (deviceTexts signals)) (devices.flatMap Device.connections)
      (ofManifests guard signals manifests) := by
  intro devices
  have note (message : String) : (Block.reporting (.debug message)).headerText = "" ∧
      (Block.reporting (.debug message)).sourceText = "" := ⟨rfl, rfl⟩
  have headers : Prod.fst ∘ deviceTexts signals = Block.headerText ∘ deviceBlock signals :=
    funext fun device => by rw [Function.comp, deviceTexts, Function.comp]
  have sources : Prod.snd ∘ deviceTexts signals = Block.sourceText ∘ deviceBlock signals :=
    funext fun device => by rw [Function.comp, deviceTexts, Function.comp]
  constructor
  case header =>
    simp only [ofManifests_eq, Block.headerText_append, Block.headerText_joined, note,
      String.append_empty, List.map_map, headers, devices]
  case source =>
    simp only [ofManifests_eq, Block.sourceText_append, Block.sourceText_joined, note,
      String.append_empty, List.map_map, sources, devices]

/-- What a device adds hangs on the device and the signals alone, whatever was written before. So
the files are their beginning, the texts of the devices in order, however the devices are spread over
manifests, and the buses of the chips; devices in another order bring their texts along. -/
theorem device_blocks_independent (signals : SignalIndex) :
    (∀ draft device, GoesOn draft (Draft.add signals draft device) (deviceTexts signals device)
      device.warnings) ∧
    (∀ guard manifests,
      MadeOf guard ((manifests.flatMap Manifest.devices).map (deviceTexts signals))
        ((manifests.flatMap Manifest.devices).flatMap Device.connections)
        (ofManifests guard signals manifests)) ∧
    ∀ guard manifests devices, (manifests.flatMap Manifest.devices).Perm devices →
      ∃ texts, texts.Perm (devices.map (deviceTexts signals)) ∧
        MadeOf guard texts ((manifests.flatMap Manifest.devices).flatMap Device.connections)
          (ofManifests guard signals manifests) := by
  refine ⟨?_, fun guard manifests => madeOf_ofManifests guard signals manifests, ?_⟩
  · exact goesOn_add signals
  · intro guard manifests devices order
    exact ⟨_, order.map (deviceTexts signals), madeOf_ofManifests guard signals manifests⟩

/-- Two devices that share their symbols, the tag of a pin and a bus. -/
def devicesOfSharedBus : List Device :=
  let chip (name driver : String) : Pin :=
    ⟨name, 0, 0, some "panel", some driver, none, [⟨"touch", .null⟩], .root "io.json"⟩
  [⟨"board", "pins", [⟨.spi, [chip "adc" "mcp3208"], .root "io.json"⟩], .root "io.json"⟩,
    ⟨"extension", "pins", [⟨.spi, [chip "dac" "dac8571"], .root "io.json"⟩], .root "io.json"⟩]

theorem device_blocks_independent_devicesOfSharedBus :
    let manifests : List Manifest := devicesOfSharedBus.reverse.map fun device => ⟨[device]⟩
    ∃ texts, texts.Perm (devicesOfSharedBus.map (deviceTexts .empty)) ∧
      MadeOf "PINS_H_" texts
        [⟨⟨"pins", .spi, "dac"⟩, "dac8571", 0⟩, ⟨⟨"pins", .spi, "adc"⟩, "mcp3208", 0⟩]
        (ofManifests "PINS_H_" .empty manifests) := by
  intro manifests
  obtain ⟨_, _, moved⟩ := device_blocks_independent .empty
  exact moved "PINS_H_" manifests devicesOfSharedBus (List.reverse_perm devicesOfSharedBus)

end Listing

end PinTable
