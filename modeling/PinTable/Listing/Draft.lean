import PinTable.Listing.Buses
import PinTable.Listing.Device

set_option autoImplicit false

/- The two C files of some manifests, in the making: a beginning, a block for each device, and the
buses of all devices at the end. What a device adds depends on nothing but the device and the
signals, so its block is the same wherever it stands. -/
namespace PinTable

/-- Lines that are added to both files, with the events on the way. -/
structure Block where
  header : List String
  source : List String
  events : List Event

namespace Block

def append (first second : Block) : Block :=
  ⟨first.header ++ second.header, first.source ++ second.source, first.events ++ second.events⟩

instance : Append Block := ⟨append⟩

def reporting (event : Event) : Block := ⟨[], [], [event]⟩

@[simp] theorem header_append (first second : Block) :
    (first ++ second).header = first.header ++ second.header := rfl

@[simp] theorem source_append (first second : Block) :
    (first ++ second).source = first.source ++ second.source := rfl

@[simp] theorem events_append (first second : Block) :
    (first ++ second).events = first.events ++ second.events := rfl

theorem append_assoc (first second third : Block) :
    first ++ second ++ third = first ++ (second ++ third) := by
  show append (append first second) third = append first (append second third)
  simp only [append, List.append_assoc]

def headerText (block : Block) : String := Listing.textOf block.header

def sourceText (block : Block) : String := Listing.textOf block.source

theorem headerText_append (first second : Block) :
    (first ++ second).headerText = first.headerText ++ second.headerText :=
  Listing.textOf_append first.header second.header

theorem sourceText_append (first second : Block) :
    (first ++ second).sourceText = first.sourceText ++ second.sourceText :=
  Listing.textOf_append first.source second.source

end Block

namespace Listing

def markerLine : String := "/* This file is generated by pinsc, do not modify. */"

/-- The beginning of both files. The guard keeps the header from being read twice. -/
def beginning (guard : String) : Block :=
  { header := [markerLine, "#ifndef " ++ guard, "#define " ++ guard, "OSAL_C_HEADER_BEGINS"]
    source := [markerLine, "#include \"pins.h\""]
    events := [] }

/-- The events of a group: a note of its size, and the warnings about its pins. -/
def groupEvents (group : PinGroup) : List Event :=
  .trace ("Group " ++ group.kind.name ++ " with " ++ natText group.pins.length ++ " pins") ::
    group.pins.flatMap fun pin => pin.warnings.map .warned

def deviceEvents (device : Device) : List Event :=
  .debug ("Emitting device '" ++ device.name ++ "' with prefix '" ++ device.base ++ "'") ::
    device.groups.flatMap groupEvents

def deviceBlock (signals : SignalIndex) (device : Device) : Block :=
  let table := DeviceTable.ofDevice signals device
  ⟨deviceHeader table, deviceSource table, deviceEvents device⟩

def ending (wiring : Wiring) : Block :=
  { header := busHeader wiring ++ ["", "OSAL_C_HEADER_ENDS", "#endif"]
    source := busSource wiring
    events :=
      [.trace (natText wiring.buses.length ++ " buses, " ++ natText wiring.chips.length ++
        " bus devices")] }

end Listing

namespace Wiring

def connectDevice (wiring : Wiring) (device : Device) : Wiring :=
  device.connections.foldl
    (fun wiring chip => (wiring.connect chip.pin chip.driver chip.clock).1) wiring

end Wiring

/-- Both files in the making: what is written, and the buses that the end will need. -/
structure Draft where
  written : Block
  wiring : Wiring

namespace Draft

/-- Both files with their beginning alone. -/
def begun (guard : String) : Draft := ⟨Listing.beginning guard, Wiring.empty⟩

def add (signals : SignalIndex) (draft : Draft) (device : Device) : Draft :=
  ⟨draft.written ++ Listing.deviceBlock signals device, draft.wiring.connectDevice device⟩

def report (draft : Draft) (event : Event) : Draft :=
  { draft with written := draft.written ++ Block.reporting event }

def ended (draft : Draft) : Block := draft.written ++ Listing.ending draft.wiring

end Draft

namespace Listing

def ofManifests (guard : String) (signals : SignalIndex) (manifests : List Manifest) : Block :=
  let draft := (manifests.flatMap Manifest.devices).foldl (Draft.add signals) (Draft.begun guard)
  (draft.report (.debug "All devices emitted")).ended

end Listing

end PinTable
