import PinTable.Proofs.Listing.Identifiers
import PinTable.Proofs.Listing.PinData
import PinTable.Proofs.OwnedPins
import PinTable.Proofs.Settings.Once

set_option autoImplicit false

namespace PinTable

open Device (Connection)

/-- What the bus of a pin goes by is what its settings say. -/
theorem Settings.clockOf_eq {kind : PinKind} {pin : Pin} (distinct : pin.DistinctAttributes) :
    Device.clockOf pin = (Entries.find? .sclk (ofPin kind pin).list).getD 0 := by
  have plain : Parameter.sclk.scale = id :=
    funext fun value => Parameter.scale_of_ne_speed .sclk value (by decide)
  rw [find?_ofPin distinct .sclk (by decide), plain, Option.map_id, id]
  rfl

/-- The line that defines the array of the pin's settings. -/
def OwnedPin.array (owned : OwnedPin) : String :=
  "static os_ushort " ++ owned.qualified.settingsArray ++ "[]= " ++
    Listing.braced owned.settings.text ++ ";"

theorem OwnedPin.HasRow.arrayLine {owned : OwnedPin} {row : Row} (has : owned.HasRow row) :
    Listing.arrayLine row = owned.array := by
  unfold Listing.arrayLine OwnedPin.array
  rw [has.pin, has.settings]

namespace Reading

/-- What stands behind the last place of a character. -/
def behindLast (stop : Char) (text : String) : String :=
  String.ofList (text.toList.reverse.takeWhile (· != stop)).reverse

theorem behindLast_append (stop : Char) (front rest : String) (free : stop ∉ rest.toList) :
    behindLast stop (front ++ (String.singleton stop ++ rest)) = rest := by
  have backward : (front ++ (String.singleton stop ++ rest)).toList.reverse =
      rest.toList.reverse ++ stop :: front.toList.reverse := by
    simp [String.toList_append]
  rw [behindLast, backward, takeWhile_ne_append stop _ _ (by rwa [List.mem_reverse]),
    List.reverse_reverse, String.ofList_toList]

/-- The clock line that the array in a line shows, or zero if it shows none. -/
def clockShown? (line : String) : Option Int := do
  let front ← before? "\x7d;" line
  let settings ← settingsIn? (behindLast '\x7b' front)
  return (Entries.find? "PIN_SCLK" settings).getD 0

/-- An array shows the clock line among the settings, whatever its symbol is. -/
theorem clockShown?_array (owned : OwnedPin) :
    clockShown? owned.array = some ((Entries.find? .sclk owned.settings.list).getD 0) := by
  have array : owned.array = "static os_ushort " ++ owned.qualified.settingsArray ++ "[]= " ++
      (String.singleton '\x7b' ++ owned.settings.text) ++ "\x7d;" := by
    have opening : String.singleton '\x7b' = "\x7b" := rfl
    have closing : "\x7d;" = "\x7d" ++ ";" := rfl
    unfold OwnedPin.array Listing.braced
    simp only [opening, closing, String.append_assoc]
  -- The symbol may hold braces, the entries hold none, so the last one opens the array.
  have free : '\x7b' ∉ owned.settings.text.toList :=
    not_mem_commaList _ (Listing.word_entries owned.settings) '\x7b' rfl (by decide)
  have symbols := Entries.find?_map_key Parameter.sclk Parameter.symbol
    (fun _ _ => Parameter.symbol_inj) owned.settings.list
  rw [clockShown?, array, before?_append, Option.bind_eq_bind, Option.bind_some,
    behindLast_append _ _ _ free, settingsIn?_text, Option.bind_eq_bind, Option.bind_some, ← symbols]
  rfl

end Reading

namespace Listing

open Reading

/-- The chip of a pin is on the bus whose clock line the array of the pin shows. -/
structure OnShownBus (wiring : Wiring) (driven : DrivenPin) (chip : Chip) : Prop where
  pin : chip.pin = driven.qualified
  driver : chip.driver = driven.driver
  bus : ∃ clock, clockShown? driven.array = some clock ∧
    (wiring.busOf? chip).map Bus.id = some ⟨driven.base, driven.kind, clock⟩

/-- The array of each pin is in the source. -/
theorem array_mem_source (guard : String) (signals : SignalIndex) (manifests : List Manifest)
    {device : Device} (isDevice : device ∈ manifests.flatMap Manifest.devices) {owned : OwnedPin}
    (isOwned : owned ∈ device.owned) :
    owned.array ∈ (ofManifests guard signals manifests).source := by
  obtain ⟨row, isRow, has⟩ := exists_of_forall₂ (DeviceTable.hasRow_each signals device) isOwned
  obtain ⟨group, isGroup, isHere⟩ := List.mem_flatMap.1 isRow
  have line : owned.array ∈ rowDefinitions row := by
    rw [← has.arrayLine, rowDefinitions]
    split <;> exact List.mem_cons_self
  exact mem_source_of_device guard signals manifests isDevice
    (definition_mem_deviceSource isGroup isHere line)

/-- Where a chip is connected for a decoded pin, it is on the bus that the array of the pin shows. -/
theorem onShownBus {wiring : Wiring} {driven : DrivenPin} {chip : Chip}
    (decoded : driven.pin.IsDecoded) (connects : wiring.Connects driven.connection chip) :
    OnShownBus wiring driven chip := by
  obtain ⟨bus, isBus, id⟩ := connects.bus
  refine ⟨connects.pin, connects.driver, _, clockShown?_array driven.toOwnedPin, ?_⟩
  rw [isBus, Option.map_some, id, OwnedPin.settings, ← Settings.clockOf_eq decoded.distinct]
  rfl

/-- The chips of decoded pins share the buses of their kind and base name just as the arrays of the
pins show the same clock lines. -/
theorem OnShownBus.bus_eq_iff {wiring : Wiring} {calls : List Connection} {one other : DrivenPin}
    {first second : Chip} (follows : wiring.Follows calls) (here : OnShownBus wiring one first)
    (there : OnShownBus wiring other second) (base : one.base = other.base)
    (kind : one.kind = other.kind) :
    first.bus = second.bus ↔ clockShown? one.array = clockShown? other.array := by
  obtain ⟨clock, shown, isBus⟩ := here.bus
  obtain ⟨known, alsoShown, isKnown⟩ := there.bus
  obtain ⟨bus, found, id⟩ := Option.map_eq_some_iff.1 isBus
  obtain ⟨shared, alsoFound, alsoId⟩ := Option.map_eq_some_iff.1 isKnown
  rw [follows.bus_eq_iff found alsoFound, id, alsoId, shown, alsoShown, base, kind,
    Option.some_inj, BusId.mk.injEq]
  simp only [true_and]

/-- The array of each decoded pin with a driver shows the clock line of the bus that its chip is on,
zero if it shows none. So two chips of one base name and kind share their bus exactly if the arrays
show the same clock line. -/
theorem clock_lines_shown (guard : String) (signals : SignalIndex) (manifests : List Manifest)
    (decoded : ∀ driven ∈ (manifests.flatMap Manifest.devices).flatMap Device.driven,
      driven.pin.IsDecoded) :
    let devices := manifests.flatMap Manifest.devices
    let driven := devices.flatMap Device.driven
    let wiring := (devices.foldl (Draft.add signals) (Draft.begun guard)).wiring
    (∀ pin ∈ driven, pin.array ∈ (ofManifests guard signals manifests).source) ∧
    List.Forall₂ (OnShownBus wiring) driven wiring.chips ∧
    ∀ one ∈ driven.zip wiring.chips, ∀ other ∈ driven.zip wiring.chips,
      one.1.base = other.1.base → one.1.kind = other.1.kind →
        (one.2.bus = other.2.bus ↔ clockShown? one.1.array = clockShown? other.1.array) := by
  intro devices driven wiring
  have follows : wiring.Follows (driven.map DrivenPin.connection) := by
    rw [Device.map_connection_flatMap_driven]
    exact follows_foldl_add guard signals devices
  have each : List.Forall₂ (OnShownBus wiring) driven wiring.chips := by
    have connects := List.forall₂_map_left_iff.1 follows.connects
    refine ((List.forall₂_and_left _ _).2 ⟨decoded, connects⟩).imp fun pin chip both => ?_
    exact onShownBus both.1 both.2
  refine ⟨?_, each, ?_⟩
  · intro pin isPin
    obtain ⟨device, isDevice, isDriven⟩ := List.mem_flatMap.1 isPin
    exact array_mem_source guard signals manifests isDevice (Device.owned_of_mem_driven isDriven)
  · intro one isOne other isOther base kind
    exact (List.forall₂_zip each isOne).bus_eq_iff follows (List.forall₂_zip each isOther) base kind

/-- A chip whose clock line a manifest tells in some way. -/
def chipOfClock (name : String) (clock : Json) : Pin :=
  ⟨name, 0, 0, none, some "mcp3208", none, [⟨"sclk", clock⟩], .root "io.json"⟩

/-- Chips on the line 18, as a text and as a real number, on the line 1, and on none. -/
def deviceOfClocks : Device :=
  ⟨"board", "pins", [⟨.spi, [chipOfClock "adc" (.string " 18 "),
    chipOfClock "dac" (.number (.real ⟨false, ⟨75, -2⟩⟩)), chipOfClock "mux" (.bool true),
    chipOfClock "fan" .null], .root "io.json"⟩], .root "io.json"⟩

theorem isDecoded_chipOfClock (name : String) (clock : Json) (distinct : clock.DistinctKeys) :
    (chipOfClock name clock).IsDecoded := by
  refine ⟨"board", .spi, .root "io.json", .object [("name", .string name),
    ("driver", .string "mcp3208"), ("sclk", clock)], ?_, rfl⟩
  simpa [Entries.keys] using distinct

theorem clock_lines_shown_deviceOfClocks :
    let driven := deviceOfClocks.driven
    let wiring := ([deviceOfClocks].foldl (Draft.add .empty) (Draft.begun "PINS_H_")).wiring
    (∀ pin ∈ driven, pin.pin.IsDecoded) ∧
    driven.map (fun pin => clockShown? pin.array) = [some 18, some 18, some 1, some 0] ∧
    List.Forall₂ (OnShownBus wiring) driven wiring.chips ∧
    wiring.chips.map Chip.bus = [0, 0, 1, 2] := by
  intro driven wiring
  have decoded : ∀ pin ∈ driven, pin.pin.IsDecoded := by
    have chips : ∀ group ∈ deviceOfClocks.groups, ∀ pin ∈ group.pins, pin.IsDecoded := by
      simp only [deviceOfClocks, List.forall_mem_singleton, List.forall_mem_cons]
      refine ⟨?_, ?_, ?_, ?_⟩ <;> apply isDecoded_chipOfClock <;> simp
    intro pin isDriven
    obtain ⟨group, isGroup, known, isPin, same⟩ :=
      (deviceOfClocks.mem_owned_iff _).1 (Device.owned_of_mem_driven isDriven)
    rw [same]
    exact chips group isGroup known isPin
  obtain ⟨-, each, -⟩ := clock_lines_shown "PINS_H_" .empty [⟨[deviceOfClocks]⟩] decoded
  have shown : driven.map (fun pin => clockShown? pin.array) =
      driven.map fun pin => some ((Entries.find? .sclk pin.settings.list).getD 0) :=
    List.map_congr_left fun pin _ => clockShown?_array pin.toOwnedPin
  refine ⟨decoded, ?_, each, by decide +kernel⟩
  rw [shown]
  decide +kernel

end Listing

end PinTable
