import PinTable.Proofs.Listing.Blocks
import PinTable.Proofs.Listing.BusRecords
import PinTable.Proofs.OwnedPins
import PinTable.Proofs.Symbol

set_option autoImplicit false

namespace PinTable.Listing

open Reading
open Device (Connection)

/-- The base name, the name of the pin and the driver of a chip are identifiers. -/
structure Named (pin : QualifiedPin) (driver : String) : Prop where
  base : isIdentifier pin.base = true
  name : isIdentifier pin.name = true
  driver : isIdentifier driver = true

instance (pin : QualifiedPin) (driver : String) : Decidable (Named pin driver) :=
  decidable_of_iff (isIdentifier pin.base = true ∧ isIdentifier pin.name = true ∧
      isIdentifier driver = true)
    ⟨fun ⟨base, name, driver⟩ => ⟨base, name, driver⟩,
      fun named => ⟨named.base, named.name, named.driver⟩⟩

/-- The links of the bus records: the last entry of each refers to the next. -/
def busLinks (text : String) : Links String SourceRecord :=
  symbolLinks SourceRecord.symbol (fun bus => bus.entries.getLast?) (recordsIn "PinsBus" text)

/-- The links of the chip records: the third entry of each refers to the next. -/
def chipLinks (text : String) : Links String SourceRecord :=
  symbolLinks SourceRecord.symbol (fun chip => chip.entries[2]?) (recordsIn "PinsBusDevice" text)

/-- The walk from the second entry of a bus record visits these chip records. -/
def ChipsOn (text : String) (bus : SourceRecord) (chips : List SourceRecord) : Prop :=
  ∃ first, bus.entries[1]? = some first ∧ Walk (chipLinks text) nullReference first chips

/-- A pin is named by a chip record on a bus. -/
def OnBus (text : String) (bus : SourceRecord) (pin : QualifiedPin) : Prop :=
  ∃ chips, ChipsOn text bus chips ∧ ∃ chip ∈ chips, chip.entries.head? = some pin.address

/-- The symbol of a chip record, with the pin and the bus that it names. -/
def chipFacts (chip : SourceRecord) : String × List String := (chip.symbol, chip.entries.take 2)

/-- What the record of the chip behind a pin has to say. -/
def factsOf (pin : QualifiedPin) (bus : BusId) : String × List String :=
  (pin.busDeviceSymbol, [pin.address, addressOf bus.symbol])

/-- What the records of the chips on a bus have to say, from the newest to the oldest. -/
def factsOn (bus : BusId) (chips : List DrivenPin) : List (String × List String) :=
  (chips.filter fun chip => chip.busId = bus).reverse.map fun chip =>
    factsOf chip.qualified chip.busId

theorem entries_of_chipFacts {record : SourceRecord} {pin : QualifiedPin} {bus : BusId}
    (same : chipFacts record = factsOf pin bus) : record.symbol = pin.busDeviceSymbol ∧
      record.entries.head? = some pin.address ∧
      record.entries[1]? = some (addressOf bus.symbol) := by
  obtain ⟨symbol, two⟩ := Prod.mk.inj same
  have first := congrArg List.head? two
  have second := congrArg (fun entries => entries[1]?) two
  rw [List.head?_take, if_neg (by decide)] at first
  rw [List.getElem?_take_of_lt (by decide)] at second
  exact ⟨symbol, first, second⟩

/-- What the records of a text show of the pins that have drivers. -/
structure ShowsBuses (text : String) (chips : List DrivenPin) : Prop where
  /-- The buses have a record each, in the order of first use. -/
  buses : (recordsIn "PinsBus" text).map SourceRecord.symbol =
    (chips.map DrivenPin.busId).eraseDups.map BusId.symbol
  busesOnce : ((recordsIn "PinsBus" text).map SourceRecord.symbol).Nodup
  /-- The walk from the main record visits every bus, the last one first, and ends. -/
  main : ∃ start, recordsIn "PinsDeviceBus" text = [⟨deviceBusSymbol, [start]⟩] ∧
    Walk (busLinks text) nullReference start (recordsIn "PinsBus" text).reverse
  /-- The walk from a bus visits just its chips, the newest first, and ends. Each names the bus. -/
  members : ∀ bus ∈ recordsIn "PinsBus" text, ∃ id ∈ chips.map DrivenPin.busId,
    bus.symbol = id.symbol ∧ ∃ visited, ChipsOn text bus visited ∧
      visited.map chipFacts = factsOn id chips
  /-- Each pin with a driver is on exactly one bus. -/
  alone : ∀ chip ∈ chips, ∃! bus, bus ∈ recordsIn "PinsBus" text ∧ OnBus text bus chip.qualified
  /-- No other pin is on a bus. -/
  others : ∀ bus ∈ recordsIn "PinsBus" text, ∀ pin : QualifiedPin, isIdentifier pin.base = true →
    OnBus text bus pin → ∃ chip ∈ chips, chip.qualified = pin
  /-- Chips of different base names, kinds or clocks share no bus. -/
  apart : ∀ bus ∈ recordsIn "PinsBus" text, ∀ one ∈ chips, ∀ other ∈ chips,
    OnBus text bus one.qualified → OnBus text bus other.qualified → one.busId = other.busId

variable {wiring : Wiring} {calls : List Connection}

theorem exists_call_of_chip (follows : wiring.Follows calls) (chip : Chip)
    (member : chip ∈ wiring.chips) : ∃ call ∈ calls, chip.pin = call.pin ∧
      chip.driver = call.driver := by
  have inside : (chip.pin, chip.driver) ∈ calls.map fun call => (call.pin, call.driver) := by
    rw [← follows.chips]
    exact List.mem_map.2 ⟨chip, member, rfl⟩
  obtain ⟨call, isCall, same⟩ := List.mem_map.1 inside
  obtain ⟨pin, driver⟩ := Prod.mk.inj same
  exact ⟨call, isCall, pin.symm, driver.symm⟩

theorem exists_call_of_bus (follows : wiring.Follows calls) (bus : Bus)
    (member : bus ∈ wiring.buses) : ∃ call ∈ calls, call.busId = bus.id := by
  have inside : bus.id ∈ (calls.map Connection.busId).eraseDups := by
    rw [← follows.map_id_buses]
    exact List.mem_map.2 ⟨bus, member, rfl⟩
  rw [List.mem_eraseDups] at inside
  exact List.mem_map.1 inside

/-- The names in the wiring of chips with identifiers are words. -/
theorem worded_of_follows (follows : wiring.Follows calls)
    (named : ∀ call ∈ calls, Named call.pin call.driver) : Worded wiring := by
  constructor
  case buses =>
    intro bus member
    obtain ⟨call, isCall, id⟩ := exists_call_of_bus follows bus member
    rw [Bus.symbol, ← id]
    exact word_busIdSymbol _ (word_of_isIdentifier _ (named call isCall).base)
  case symbols =>
    intro chip member
    obtain ⟨call, isCall, pin, _⟩ := exists_call_of_chip follows chip member
    rw [Chip.symbol, pin]
    exact word_busDeviceSymbol _ (word_of_isIdentifier _ (named call isCall).base)
      (word_of_isIdentifier _ (named call isCall).name)
  case pins =>
    intro chip member
    obtain ⟨call, isCall, pin, _⟩ := exists_call_of_chip follows chip member
    rw [pin]
    exact word_member _ (word_of_isIdentifier _ (named call isCall).base)
      (word_of_isIdentifier _ (named call isCall).name)
  case chipDrivers =>
    intro chip member
    obtain ⟨call, isCall, _, driver⟩ := exists_call_of_chip follows chip member
    rw [driver]
    exact word_of_isIdentifier _ (named call isCall).driver
  case drivers =>
    intro driver member
    rw [follows.drivers, List.mem_eraseDups] at member
    obtain ⟨call, isCall, rfl⟩ := List.mem_map.1 member
    exact word_of_isIdentifier _ (named call isCall).driver

theorem symbols_busRecords (follows : wiring.Follows calls) :
    (busRecords wiring).map SourceRecord.symbol =
      (calls.map Connection.busId).eraseDups.map BusId.symbol := by
  rw [map_symbol_busRecords, ← follows.map_id_buses, List.map_map]
  rfl

theorem symbols_busRecords_nodup (follows : wiring.Follows calls) :
    ((busRecords wiring).map SourceRecord.symbol).Nodup := by
  rw [symbols_busRecords follows]
  exact (nodup_eraseDups _).map fun _ _ => BusId.symbol_inj

/-- The symbols, pins and buses of the chip records are those of the chips that were connected. -/
theorem facts_chipRecords (follows : wiring.Follows calls) :
    (chipRecords wiring).map chipFacts = calls.map fun call => factsOf call.pin call.busId := by
  rw [chipRecords, List.map_map]
  refine (map_eq_of_forall₂ (follows.connects.imp fun call chip connects => ?_)).symm
  obtain ⟨bus, isBus, id⟩ := connects.bus
  rw [Function.comp_apply, chipFacts, chipRecord, isBus, factsOf, ← id, Chip.symbol, connects.pin]
  rfl

theorem symbols_chipRecords_nodup (follows : wiring.Follows calls)
    (distinct : (calls.map fun call => call.pin.busDeviceSymbol).Nodup) :
    ((chipRecords wiring).map SourceRecord.symbol).Nodup := by
  have same : (chipRecords wiring).map SourceRecord.symbol =
      calls.map fun call => call.pin.busDeviceSymbol := by
    have facts := congrArg (List.map Prod.fst) (facts_chipRecords follows)
    rwa [List.map_map, List.map_map] at facts
  rwa [same]

/-- The walk from the reference to the bus before a position visits the buses up to there. -/
theorem walk_busRecords (follows : wiring.Follows calls) (count : Nat)
    (inside : count ≤ wiring.buses.length) :
    Walk (symbolLinks SourceRecord.symbol (fun bus => bus.entries.getLast?) (busRecords wiring))
      nullReference (wiring.previousReference count) ((busRecords wiring).take count).reverse := by
  -- Each bus refers to the one before it, so the walk grows at its front.
  induction count with
  | zero => exact .stop
  | succ count ih =>
      have there : wiring.buses[count]? = some wiring.buses[count] :=
        List.getElem?_eq_getElem inside
      have record : (busRecords wiring)[count]? =
          some (busRecord wiring count wiring.buses[count]) := by
        rw [busRecords, List.getElem?_mapIdx, there, Option.map_some]
      have reference : wiring.previousReference (count + 1) =
          addressOf (busRecord wiring count wiring.buses[count]).symbol := by
        rw [Wiring.previousReference, there, Option.map_some]
        rfl
      rw [List.take_add_one, record, Option.toList_some, List.reverse_concat, reference]
      refine .step ?_ (ih (Nat.le_of_succ_le inside))
      exact symbolLinks_of_mem _ _ _ (symbols_busRecords_nodup follows) _
        (List.mem_of_getElem? record) _ rfl

/-- The walk from the main record visits all buses, the last one first. -/
theorem walk_lastReference (follows : wiring.Follows calls) :
    Walk (symbolLinks SourceRecord.symbol (fun bus => bus.entries.getLast?) (busRecords wiring))
      nullReference wiring.lastReference (busRecords wiring).reverse := by
  have whole := walk_busRecords follows wiring.buses.length (Nat.le_refl _)
  have length : (busRecords wiring).length = wiring.buses.length := List.length_mapIdx
  rwa [List.take_of_length_le (Nat.le_of_eq length)] at whole

/-- The walk from a bus visits the records of its chips, the newest first. -/
theorem walk_chipRecords (follows : wiring.Follows calls)
    (distinct : ((chipRecords wiring).map SourceRecord.symbol).Nodup) (bus : Bus)
    (member : bus ∈ wiring.buses) :
    ∃ chips, (positionsOf bus.id (calls.map Connection.busId)).reverse.map
        (fun position => (chipRecords wiring)[position]?) = chips.map some ∧
      Walk (symbolLinks SourceRecord.symbol (fun chip => chip.entries[2]?) (chipRecords wiring))
        nullReference (referenceTo ((wiring.headOf? bus).map Chip.symbol)) chips := by
  -- Positions are written as references, and chips as their records.
  let name : Option Nat → String := fun reference =>
    referenceTo ((reference.bind fun position => wiring.chips[position]?).map Chip.symbol)
  have kept : ∀ start position next, wiring.links start = some (position, next) →
      ∃ seen, (chipRecords wiring)[position]? = some seen ∧
        symbolLinks SourceRecord.symbol (fun chip => chip.entries[2]?) (chipRecords wiring)
          (name start) = some (seen, name next) := by
    intro start position next leads
    obtain ⟨place, rfl, leads⟩ := Option.bind_eq_some_iff.1 leads
    obtain ⟨chip, there, same⟩ := Option.map_eq_some_iff.1 leads
    cases same
    have record : (chipRecords wiring)[position]? = some (chipRecord wiring chip) := by
      rw [chipRecords, List.getElem?_map, there, Option.map_some]
    have reference : name (some position) = addressOf (chipRecord wiring chip).symbol := by
      show referenceTo ((wiring.chips[position]?).map Chip.symbol) = _
      rw [there]
      rfl
    refine ⟨chipRecord wiring chip, record, ?_⟩
    rw [reference]
    exact symbolLinks_of_mem _ _ _ distinct _ (List.mem_of_getElem? record) _ rfl
  exact (follows.walk bus member).written name _ kept

/-- The chips at the positions of a bus are those that were connected to it. -/
theorem facts_of_positions (follows : wiring.Follows calls) (id : BusId)
    (visited : List SourceRecord)
    (standing : (positionsOf id (calls.map Connection.busId)).reverse.map
      (fun position => (chipRecords wiring)[position]?) = visited.map some) :
    visited.map chipFacts = (calls.filter fun call => call.busId = id).reverse.map
      fun call => factsOf call.pin call.busId := by
  -- A chip stands where it stands in the history, and the history is sorted by bus.
  let pairs := calls.map fun call => (call.busId, call)
  have keys : pairs.map Prod.fst = calls.map Connection.busId := by
    rw [List.map_map]
    rfl
  have items : pairs.map Prod.snd = calls := by
    rw [List.map_map]
    exact List.map_id calls
  have onBus : itemsOf id pairs = calls.filter fun call => call.busId = id := by
    rw [itemsOf, List.filter_map, List.map_map]
    exact List.map_id _
  have history := map_getElem?_positionsOf id pairs
  rw [keys, items, onBus] at history
  have facts := facts_chipRecords follows
  have seen : (visited.map chipFacts).map some =
      ((calls.filter fun call => call.busId = id).reverse.map
        fun call => factsOf call.pin call.busId).map some := by
    calc (visited.map chipFacts).map some
        = (visited.map some).map (Option.map chipFacts) := by simp
      _ = (positionsOf id (calls.map Connection.busId)).reverse.map
            (fun position => ((chipRecords wiring).map chipFacts)[position]?) := by
          rw [← standing, List.map_map]
          simp
      _ = ((positionsOf id (calls.map Connection.busId)).map
            (fun position => calls[position]?)).reverse.map
              (Option.map fun call => factsOf call.pin call.busId) := by
          rw [facts]
          simp
      _ = ((calls.filter fun call => call.busId = id).reverse.map
            fun call => factsOf call.pin call.busId).map some := by
          rw [history]
          simp
  exact List.map_injective_iff.2 (fun _ _ => Option.some.inj) seen

section Graph

variable {chips : List DrivenPin}

theorem map_busId_connection (chips : List DrivenPin) :
    (chips.map DrivenPin.connection).map Connection.busId = chips.map DrivenPin.busId := by
  rw [List.map_map]
  exact List.map_congr_left fun chip _ => chip.busId_connection

theorem facts_filter_connection (chips : List DrivenPin) (id : BusId) :
    ((chips.map DrivenPin.connection).filter fun call => call.busId = id).reverse.map
      (fun call => factsOf call.pin call.busId) = factsOn id chips := by
  rw [factsOn, List.filter_map, ← List.map_reverse, List.map_map]
  simp only [Function.comp_def, DrivenPin.busId_connection]
  rfl

/-- The records of each bus lead to its chips. -/
theorem exists_chipsOn (follows : wiring.Follows (chips.map DrivenPin.connection))
    (worded : Worded wiring)
    (distinct : (chips.map fun chip => chip.qualified.busDeviceSymbol).Nodup) (bus : SourceRecord)
    (member : bus ∈ busRecords wiring) :
    ∃ id ∈ chips.map DrivenPin.busId, bus.symbol = id.symbol ∧
      ∃ visited, ChipsOn (ending wiring).sourceText bus visited ∧
        visited.map chipFacts = factsOn id chips := by
  obtain ⟨position, inside, rfl⟩ := List.mem_mapIdx.1 member
  have isBus := List.getElem_mem inside
  obtain ⟨call, isCall, id⟩ := exists_call_of_bus follows _ isBus
  have symbols : ((chips.map DrivenPin.connection).map fun call =>
      call.pin.busDeviceSymbol).Nodup := by
    rwa [List.map_map]
  obtain ⟨visited, standing, walk⟩ :=
    walk_chipRecords follows (symbols_chipRecords_nodup follows symbols) _ isBus
  refine ⟨wiring.buses[position].id, ?_, rfl, visited, ⟨_, rfl, ?_⟩, ?_⟩
  · rw [← map_busId_connection, ← id]
    exact List.mem_map_of_mem isCall
  · rw [chipLinks, recordsIn_ending_chips worded]
    exact walk
  · rw [← facts_filter_connection]
    exact facts_of_positions follows _ visited standing

/-- A pin that is named on a bus is one of those connected to it. -/
theorem exists_chip_of_onBus {text : String} {bus : SourceRecord} {visited : List SourceRecord}
    {id : BusId} (named : ∀ chip ∈ chips, Named chip.qualified chip.driver)
    (chipsOn : ChipsOn text bus visited)
    (facts : visited.map chipFacts = factsOn id chips)
    (pin : QualifiedPin) (base : isIdentifier pin.base = true) (onBus : OnBus text bus pin) :
    ∃ chip ∈ chips, chip.qualified = pin ∧ chip.busId = id := by
  obtain ⟨others, ⟨start, isStart, walked⟩, record, isVisited, address⟩ := onBus
  obtain ⟨first, isFirst, walk⟩ := chipsOn
  obtain rfl : first = start := Option.some.inj (isFirst.symm.trans isStart)
  -- There is only one walk from the bus, so the pin is named by one of these chips.
  obtain rfl := walked.unique (symbolLinks_null _ _ _) walk
  have stated : chipFacts record ∈ others.map chipFacts := List.mem_map_of_mem isVisited
  rw [facts] at stated
  obtain ⟨chip, isChip, same⟩ := List.mem_map.1 stated
  rw [List.mem_reverse, List.mem_filter, decide_eq_true_eq] at isChip
  have heads := address.symm.trans (entries_of_chipFacts same.symm).2.1
  have dot : ∀ text, isIdentifier text = true → '.' ∉ text.toList :=
    fun text identifier => not_mem_of_isIdentifier text identifier '.' rfl
  exact ⟨chip, isChip.1, QualifiedPin.member_inj (dot _ (named chip isChip.1).base) (dot _ base)
    (addressOf_inj (Option.some.inj heads).symm), isChip.2⟩

theorem onBus_of_busId {text : String} {bus : SourceRecord} {visited : List SourceRecord}
    (chip : DrivenPin) (isChip : chip ∈ chips) (chipsOn : ChipsOn text bus visited)
    (facts : visited.map chipFacts = factsOn chip.busId chips) :
    OnBus text bus chip.qualified := by
  have stated : factsOf chip.qualified chip.busId ∈ visited.map chipFacts := by
    rw [facts]
    refine List.mem_map.2 ⟨chip, ?_, rfl⟩
    rw [List.mem_reverse, List.mem_filter]
    exact ⟨isChip, decide_eq_true rfl⟩
  obtain ⟨record, isVisited, same⟩ := List.mem_map.1 stated
  exact ⟨visited, chipsOn, record, isVisited, (entries_of_chipFacts same).2.1⟩

theorem onBus_iff (follows : wiring.Follows (chips.map DrivenPin.connection))
    (worded : Worded wiring) (named : ∀ chip ∈ chips, Named chip.qualified chip.driver)
    (distinct : (chips.map fun chip => chip.qualified.busDeviceSymbol).Nodup) (bus : SourceRecord)
    (member : bus ∈ busRecords wiring) (chip : DrivenPin) (isChip : chip ∈ chips) :
    OnBus (ending wiring).sourceText bus chip.qualified ↔ bus.symbol = chip.busId.symbol := by
  obtain ⟨id, _, symbol, visited, chipsOn, facts⟩ :=
    exists_chipsOn follows worded distinct bus member
  constructor
  · intro onBus
    obtain ⟨other, isOther, pin, same⟩ := exists_chip_of_onBus named chipsOn facts chip.qualified
      (named chip isChip).base onBus
    obtain rfl : other = chip :=
      List.inj_on_of_nodup_map distinct isOther isChip (congrArg _ pin)
    rw [symbol, same]
  · intro same
    obtain rfl : id = chip.busId := BusId.symbol_inj (symbol.symm.trans same)
    exact onBus_of_busId chip isChip chipsOn facts

theorem showsBuses (follows : wiring.Follows (chips.map DrivenPin.connection))
    (named : ∀ chip ∈ chips, Named chip.qualified chip.driver)
    (distinct : (chips.map fun chip => chip.qualified.busDeviceSymbol).Nodup) :
    ShowsBuses (ending wiring).sourceText chips := by
  have worded := worded_of_follows follows (List.forall_mem_map.2 named)
  have symbols := symbols_busRecords follows
  rw [map_busId_connection] at symbols
  have once := symbols_busRecords_nodup follows
  have onBus := onBus_iff follows worded named distinct
  constructor
  all_goals
    try rw [recordsIn_ending_buses worded]
  case buses => exact symbols
  case busesOnce => exact once
  case main =>
    refine ⟨wiring.lastReference, recordsIn_ending_main worded, ?_⟩
    rw [busLinks, recordsIn_ending_buses worded]
    exact walk_lastReference follows
  case members => exact exists_chipsOn follows worded distinct
  case alone =>
    intro chip isChip
    have known : chip.busId.symbol ∈ (busRecords wiring).map SourceRecord.symbol := by
      rw [symbols]
      apply List.mem_map_of_mem
      rw [List.mem_eraseDups]
      exact List.mem_map_of_mem isChip
    obtain ⟨bus, isBus, symbol⟩ := List.mem_map.1 known
    refine ⟨bus, ⟨isBus, (onBus bus isBus chip isChip).2 symbol⟩, ?_⟩
    rintro other ⟨isOther, also⟩
    have same := (onBus other isOther chip isChip).1 also
    exact List.inj_on_of_nodup_map once isOther isBus (same.trans symbol.symm)
  case others =>
    intro bus isBus pin base named'
    obtain ⟨id, _, _, visited, chipsOn, facts⟩ := exists_chipsOn follows worded distinct bus isBus
    obtain ⟨chip, isChip, same, _⟩ := exists_chip_of_onBus named chipsOn facts pin base named'
    exact ⟨chip, isChip, same⟩
  case apart =>
    intro bus isBus one isOne other isOther left right
    apply BusId.symbol_inj
    rw [← (onBus bus isBus one isOne).1 left, (onBus bus isBus other isOther).1 right]

end Graph

/-- After any run of devices, the block that ends the source shows the pins with drivers of all
devices, each on the bus of its base name, kind and clock line. -/
theorem buses_of_devices (guard : String) (signals : SignalIndex) (devices : List Device)
    (named : ∀ chip ∈ devices.flatMap Device.driven, Named chip.qualified chip.driver)
    (distinct : ((devices.flatMap Device.driven).map
      fun chip => chip.qualified.busDeviceSymbol).Nodup) :
    let draft := devices.foldl (Draft.add signals) (Draft.begun guard)
    ∃ block, draft.ended.sourceText = draft.written.sourceText ++ block ∧
      ShowsBuses block (devices.flatMap Device.driven) := by
  intro draft
  refine ⟨(ending draft.wiring).sourceText, Block.sourceText_append _ _, ?_⟩
  have wiring : draft.wiring = Wiring.empty.connectAll (devices.flatMap Device.connections) :=
    wiring_foldl_add signals devices (Draft.begun guard)
  rw [wiring, ← Device.map_connection_flatMap_driven]
  exact showsBuses (Wiring.follows_connectAll _) named distinct

/-- Two devices with four chips. Three of them have their clock on line 18, but only two of these
share a bus, since the third is of another kind. -/
def chipsOfTwoDevices : List Device :=
  let chip (name driver : String) (attributes : List Attribute) : Pin :=
    ⟨name, 0, 0, none, some driver, none, attributes, .root "io.json"⟩
  let line : List Attribute := [⟨"sclk", .string "18"⟩]
  [⟨"board", "pins", [⟨.spi, [chip "adc" "mcp3208" [], chip "dac" "dac8571" line], .root "io.json"⟩,
      ⟨.inputs, [⟨"button", 0, 4, none, none, none, [], .root "io.json"⟩], .root "io.json"⟩],
      .root "io.json"⟩,
    ⟨"extension", "pins", [⟨.analogInputs, [chip "light" "bh1750" line], .root "io.json"⟩,
      ⟨.spi, [chip "leds" "mcp3208" line], .root "io.json"⟩], .root "io.json"⟩]

/-- The buses of these chips, each with the symbols, pins and references to buses that its chips
have, the newest first. -/
def busesOfTwoDevices : List (String × List (String × List String)) :=
  [("pins_bus_spi_0", [("pins_device_spi_adc", ["&pins.spi.adc", "&pins_bus_spi_0"])]),
    ("pins_bus_spi_18", [("pins_device_spi_leds", ["&pins.spi.leds", "&pins_bus_spi_18"]),
      ("pins_device_spi_dac", ["&pins.spi.dac", "&pins_bus_spi_18"])]),
    ("pins_bus_analog_inputs_18", [("pins_device_analog_inputs_light",
      ["&pins.analog_inputs.light", "&pins_bus_analog_inputs_18"])])]

theorem buses_of_chipsOfTwoDevices :
    let chips := chipsOfTwoDevices.flatMap Device.driven
    let draft := chipsOfTwoDevices.foldl (Draft.add .empty) (Draft.begun "PINS_H_")
    (∀ chip ∈ chips, Named chip.qualified chip.driver) ∧
    (chips.map fun chip => chip.qualified.busDeviceSymbol).Nodup ∧
    chips.map (fun chip => (chip.qualified, chip.driver, chip.busId)) =
      [(⟨"pins", .spi, "adc"⟩, "mcp3208", ⟨"pins", .spi, 0⟩),
        (⟨"pins", .spi, "dac"⟩, "dac8571", ⟨"pins", .spi, 18⟩),
        (⟨"pins", .analogInputs, "light"⟩, "bh1750", ⟨"pins", .analogInputs, 18⟩),
        (⟨"pins", .spi, "leds"⟩, "mcp3208", ⟨"pins", .spi, 18⟩)] ∧
    ∃ block, draft.ended.sourceText = draft.written.sourceText ++ block ∧ ShowsBuses block chips ∧
      (recordsIn "PinsBus" block).map SourceRecord.symbol = busesOfTwoDevices.map Prod.fst ∧
      ∀ bus ∈ recordsIn "PinsBus" block, ∃ visited, ChipsOn block bus visited ∧
        (bus.symbol, visited.map chipFacts) ∈ busesOfTwoDevices := by
  intro chips draft
  have named : ∀ chip ∈ chips, Named chip.qualified chip.driver := by
    decide +kernel
  have distinct : (chips.map fun chip => chip.qualified.busDeviceSymbol).Nodup := by
    decide +kernel
  obtain ⟨block, text, shows⟩ := buses_of_devices "PINS_H_" .empty chipsOfTwoDevices named distinct
  refine ⟨named, distinct, by decide +kernel, block, text, shows, ?_, ?_⟩
  · rw [shows.buses]
    decide +kernel
  · intro bus isBus
    obtain ⟨id, isId, symbol, visited, chipsOn, facts⟩ := shows.members bus isBus
    refine ⟨visited, chipsOn, ?_⟩
    rw [symbol, facts]
    have each : ∀ id ∈ chips.map DrivenPin.busId,
        (id.symbol, factsOn id chips) ∈ busesOfTwoDevices := by
      decide +kernel
    exact each id isId

end PinTable.Listing
