import PinTable.Proofs.Listing.BusGraph

set_option autoImplicit false

/- The order of initialization. When a chip is initialized, its own bus and its own driver already
are, as its record tells them. This holds for names of any form, so calls are told apart as calls,
and their text is stated beside them. -/
namespace PinTable.Listing

open Reading
open Device (Connection)

/-- A call in the routine that initializes buses, drivers and chips. -/
inductive InitialCall where
  | bus (symbol : String)
  | driver (name : String)
  | chip (user symbol : String)
  deriving DecidableEq, Repr

namespace InitialCall

def line : InitialCall → String
  | bus symbol => "    pins_init_bus(" ++ addressOf symbol ++ ");"
  | driver name => "    " ++ name ++ "_initialize_driver();"
  | chip user symbol => "    " ++ user ++ "_initialize(" ++ addressOf symbol ++ ");"

def isChip : InitialCall → Bool
  | chip .. => true
  | _ => false

theorem line_bus (symbol : String) :
    (bus symbol).line = "    pins_init_bus(" ++ addressOf symbol ++ ");" := rfl

theorem line_driver (name : String) :
    (driver name).line = "    " ++ name ++ "_initialize_driver();" := rfl

end InitialCall

/-- The source from the records of chips to its end. -/
def routineLines (records : List SourceRecord) (body : List InitialCall) : List String :=
  records.map (recordLine "PinsBusDevice") ++
    sectionComment "Initialize all SPI and I2C bus devices" ++
    ["void pins_initialize_bus_devices(void)", "\x7b"] ++ body.map InitialCall.line ++
    ["\x7d", "#endif"]

/-- The entry points of a driver that the record of a chip holds. -/
def heldEntries (driver : String) : List String :=
  ["_gen_req", "_proc_resp", "_set", "_get"].map fun name => addressOf (driver ++ name)

/-- When a chip of a driver is initialized behind some calls of a body, the bus that its record names
is initialized, and so is the driver whose entry points the record holds, each by one call. -/
structure ChipReady (record : SourceRecord) (body before : List InitialCall)
    (driver symbol : String) : Prop where
  symbol : record.symbol = symbol
  bus : ∃ bus, record.entries[1]? = some (addressOf bus) ∧ .bus bus ∈ before ∧
    body.count (.bus bus) = 1
  entries : record.entries.drop 3 = heldEntries driver
  driver : .driver driver ∈ before ∧ body.count (.driver driver) = 1

/-- What a body shows of the pins that have drivers, beside the records of their chips. -/
structure InitializesInOrder (chips : List DrivenPin) (records : List SourceRecord)
    (body : List InitialCall) : Prop where
  /-- One call for each bus, one for each driver, one for each pin in their order, and no other. -/
  calls : body = (chips.map DrivenPin.busId).eraseDups.map (fun id => .bus id.symbol) ++
    (chips.map DrivenPin.driver).eraseDups.map .driver ++
    chips.map fun chip => .chip chip.driver chip.qualified.busDeviceSymbol
  /-- No two calls for buses and drivers are written alike. -/
  once : ((body.filter fun call => !call.isChip).map InitialCall.line).Nodup
  length : records.length = chips.length
  /-- The record of a chip stands among the records where its call stands among those of chips. -/
  ready : ∀ before driver symbol after, body = before ++ .chip driver symbol :: after →
    ∃ record, records[before.countP InitialCall.isChip]? = some record ∧
      ChipReady record body before driver symbol

def oneTimeCalls (chips : List DrivenPin) : List InitialCall :=
  (chips.map DrivenPin.busId).eraseDups.map (fun id => .bus id.symbol) ++
    (chips.map DrivenPin.driver).eraseDups.map .driver

def callOf (chip : DrivenPin) : InitialCall := .chip chip.driver chip.qualified.busDeviceSymbol

def bodyFor (chips : List DrivenPin) : List InitialCall := oneTimeCalls chips ++ chips.map callOf

/-- The symbol of a bus ends in the last digit of its clock. -/
theorem exists_toList_busSymbol (id : BusId) :
    ∃ front last, id.symbol.toList = front ++ [last] ∧ last ≠ '(' := by
  have nonempty : (intText id.clock).toList ≠ [] := by
    unfold intText
    split
    · simp [String.toList_append]
    · rw [natText, String.toList_ofList]
      exact decimalDigits_ne_nil _
  obtain ⟨front, last, digits⟩ := (List.eq_nil_or_concat' _).resolve_left nonempty
  have inside : last ∈ (intText id.clock).toList := by
    rw [digits]
    exact List.mem_append_right _ (List.mem_singleton_self _)
  refine ⟨(id.base ++ "_bus_" ++ id.kind.name ++ "_").toList ++ front, last, ?_, ?_⟩
  · rw [BusId.symbol, String.toList_append, digits, List.append_assoc]
  · rintro rfl
    exact not_mem_intText _ '(' rfl (by decide) inside

theorem line_bus_ne_line_driver (id : BusId) (name : String) :
    (InitialCall.bus id.symbol).line ≠ (InitialCall.driver name).line := by
  intro same
  obtain ⟨front, last, symbol, digit⟩ := exists_toList_busSymbol id
  -- Both lines end in a bracket and a semicolon, and differ in the character before these.
  have third := congrArg (fun text => text.toList.reverse[2]?) same
  simp [InitialCall.line_bus, InitialCall.line_driver, addressOf, String.toList_append,
    symbol] at third
  exact digit third

section Calls

variable (chips : List DrivenPin)

theorem isChip_oneTimeCalls : ∀ call ∈ oneTimeCalls chips, call.isChip = false := by
  simp only [oneTimeCalls, List.forall_mem_append, List.forall_mem_map]
  exact ⟨fun _ _ => rfl, fun _ _ => rfl⟩

theorem lines_oneTimeCalls_nodup : ((oneTimeCalls chips).map InitialCall.line).Nodup := by
  rw [oneTimeCalls, List.map_append, List.map_map, List.map_map, List.nodup_append]
  refine ⟨?_, ?_, ?_⟩
  · apply (nodup_eraseDups _).map
    intro one other same
    have addresses := (String.append_right_inj _).1 ((String.append_left_inj _).1 same)
    exact BusId.symbol_inj (addressOf_inj addresses)
  · apply (nodup_eraseDups _).map
    intro one other same
    exact (String.append_right_inj _).1 ((String.append_left_inj _).1 same)
  · intro one isBus other isDriver
    obtain ⟨id, _, rfl⟩ := List.mem_map.1 isBus
    obtain ⟨driver, _, rfl⟩ := List.mem_map.1 isDriver
    exact line_bus_ne_line_driver id driver

theorem filter_bodyFor :
    (bodyFor chips).filter (fun call => !call.isChip) = oneTimeCalls chips := by
  have kept : (oneTimeCalls chips).filter (fun call => !call.isChip) = oneTimeCalls chips := by
    rw [List.filter_eq_self]
    intro call member
    rw [isChip_oneTimeCalls chips call member]
    rfl
  have left : (chips.map callOf).filter (fun call => !call.isChip) = [] := by
    rw [List.filter_eq_nil_iff, List.forall_mem_map]
    exact fun chip _ => Bool.false_ne_true
  rw [bodyFor, List.filter_append, kept, left, List.append_nil]

/-- A call for a bus or a driver is made once in the whole body. -/
theorem count_bodyFor (call : InitialCall) (member : call ∈ oneTimeCalls chips) :
    (bodyFor chips).count call = 1 := by
  have once := List.count_eq_one_of_mem (lines_oneTimeCalls_nodup chips).of_map member
  have absent : call ∉ chips.map callOf := by
    intro isChip
    obtain ⟨chip, _, rfl⟩ := List.mem_map.1 isChip
    cases isChip_oneTimeCalls chips _ member
  rw [bodyFor, List.count_append, once, List.count_eq_zero_of_not_mem absent]

/-- Where a chip is initialized, all buses and drivers already are, and so are the chips before
it. -/
theorem split_bodyFor (before after : List InitialCall) (driver symbol : String)
    (split : bodyFor chips = before ++ .chip driver symbol :: after) :
    ∃ front chip back, chips = front ++ chip :: back ∧ callOf chip = .chip driver symbol ∧
      before = oneTimeCalls chips ++ front.map callOf := by
  obtain ⟨middle, isBefore, rest⟩ : ∃ middle, before = oneTimeCalls chips ++ middle ∧
      chips.map callOf = middle ++ .chip driver symbol :: after := by
    rcases List.append_eq_append_iff.1 split with behind | ⟨middle, isOneTime, rest⟩
    · exact behind
    · cases middle with
      | nil =>
          rw [List.append_nil] at isOneTime
          exact ⟨[], by rw [isOneTime, List.append_nil], rest.symm⟩
      | cons call others =>
          -- The call of a chip is none of those for buses and drivers.
          obtain ⟨rfl, _⟩ := List.cons.inj rest
          have inside : .chip driver symbol ∈ oneTimeCalls chips := by
            rw [isOneTime]
            exact List.mem_append_right _ (List.mem_cons_self ..)
          cases isChip_oneTimeCalls chips _ inside
  obtain ⟨front, others, parts, isFront, isOthers⟩ := List.map_eq_append_iff.1 rest
  obtain ⟨chip, back, rfl, isChip, _⟩ := List.map_eq_cons_iff.1 isOthers
  refine ⟨front, chip, back, parts, isChip, ?_⟩
  rw [isBefore, isFront]

theorem countP_isChip (front : List DrivenPin) :
    (oneTimeCalls chips ++ front.map callOf).countP InitialCall.isChip = front.length := by
  have none : (oneTimeCalls chips).countP InitialCall.isChip = 0 := by
    rw [List.countP_eq_zero]
    intro call member
    rw [isChip_oneTimeCalls chips call member]
    exact Bool.false_ne_true
  have all : (front.map callOf).countP InitialCall.isChip = (front.map callOf).length := by
    rw [List.countP_eq_length, List.forall_mem_map]
    exact fun chip _ => rfl
  rw [List.countP_append, none, all, List.length_map, Nat.zero_add]

end Calls

section Records

theorem entries_chipRecords {wiring : Wiring} {calls : List Connection}
    (follows : wiring.Follows calls) :
    (chipRecords wiring).map (fun record => record.entries.drop 3) =
      calls.map fun call => heldEntries call.driver := by
  have drivers := congrArg (List.map fun chip => heldEntries chip.2) follows.chips
  rw [List.map_map, List.map_map] at drivers
  rw [chipRecords, List.map_map]
  exact drivers

variable {wiring : Wiring} {chips : List DrivenPin}

/-- The record of a chip stands where its pin does among the pins with drivers. -/
theorem exists_record (follows : wiring.Follows (chips.map DrivenPin.connection)) (position : Nat)
    (chip : DrivenPin) (there : chips[position]? = some chip) :
    ∃ record, (chipRecords wiring)[position]? = some record ∧
      chipFacts record = factsOf chip.qualified chip.busId ∧
      record.entries.drop 3 = heldEntries chip.driver := by
  have facts := congrArg (fun list => list[position]?) (facts_chipRecords follows)
  have entries := congrArg (fun list => list[position]?) (entries_chipRecords follows)
  simp only [List.getElem?_map, there, Option.map_some, DrivenPin.busId_connection] at facts entries
  obtain ⟨record, isRecord, isFacts⟩ := Option.map_eq_some_iff.1 facts
  rw [isRecord, Option.map_some, Option.some_inj] at entries
  exact ⟨record, isRecord, isFacts, entries⟩

theorem chipReady (follows : wiring.Follows (chips.map DrivenPin.connection))
    (before after : List InitialCall) (driver symbol : String)
    (split : bodyFor chips = before ++ .chip driver symbol :: after) :
    ∃ record, (chipRecords wiring)[before.countP InitialCall.isChip]? = some record ∧
      ChipReady record (bodyFor chips) before driver symbol := by
  obtain ⟨front, chip, back, parts, call, rfl⟩ := split_bodyFor chips before after driver symbol split
  obtain ⟨rfl, rfl⟩ := InitialCall.chip.inj call
  have there : chips[front.length]? = some chip := by
    rw [parts, List.getElem?_append_right (Nat.le_refl _), Nat.sub_self]
    rfl
  have member : chip ∈ chips := List.mem_of_getElem? there
  obtain ⟨record, isRecord, facts, entries⟩ := exists_record follows front.length chip there
  obtain ⟨isSymbol, _, named⟩ := entries_of_chipFacts facts
  have bus : .bus chip.busId.symbol ∈ oneTimeCalls chips := by
    apply List.mem_append_left
    exact List.mem_map.2 ⟨_, List.mem_eraseDups.2 (List.mem_map_of_mem member), rfl⟩
  have isDriver : .driver chip.driver ∈ oneTimeCalls chips := by
    apply List.mem_append_right
    exact List.mem_map.2 ⟨_, List.mem_eraseDups.2 (List.mem_map_of_mem member), rfl⟩
  rw [countP_isChip]
  exact ⟨record, isRecord, isSymbol,
    ⟨_, named, List.mem_append_left _ bus, count_bodyFor _ _ bus⟩,
    entries, List.mem_append_left _ isDriver, count_bodyFor _ _ isDriver⟩

theorem initializesInOrder (follows : wiring.Follows (chips.map DrivenPin.connection)) :
    InitializesInOrder chips (chipRecords wiring) (bodyFor chips) := by
  constructor
  case calls => rfl
  case once =>
    rw [filter_bodyFor]
    exact lines_oneTimeCalls_nodup chips
  case length => rw [chipRecords, List.length_map, follows.length_chips, List.length_map]
  case ready => exact fun before driver symbol after => chipReady follows before after driver symbol

/-- The calls of the routine, as they stand in the wiring. -/
theorem initializerLines_eq (follows : wiring.Follows (chips.map DrivenPin.connection)) :
    initializerLines wiring = ["void pins_initialize_bus_devices(void)", "\x7b"] ++
      (bodyFor chips).map InitialCall.line ++ ["\x7d"] := by
  have buses : wiring.buses.map busCall =
      ((chips.map DrivenPin.busId).eraseDups.map fun id => InitialCall.bus id.symbol).map
        InitialCall.line := by
    rw [← map_busId_connection, ← follows.map_id_buses, List.map_map, List.map_map]
    rfl
  have drivers : wiring.drivers.map driverCall =
      ((chips.map DrivenPin.driver).eraseDups.map InitialCall.driver).map InitialCall.line := by
    rw [follows.drivers, List.map_map, List.map_map]
    rfl
  have calls : wiring.chips.map chipCall = (chips.map callOf).map InitialCall.line := by
    have pairs := congrArg
      (List.map fun chip => (InitialCall.chip chip.2 chip.1.busDeviceSymbol).line) follows.chips
    rw [List.map_map, List.map_map, List.map_map] at pairs
    rw [List.map_map]
    exact pairs
  rw [initializerLines, buses, drivers, calls, bodyFor, oneTimeCalls, List.map_append,
    List.map_append]
  simp only [List.append_assoc]
  rfl

theorem sourceText_ending (follows : wiring.Follows (chips.map DrivenPin.connection)) :
    ∃ front, (ending wiring).sourceText =
      front ++ textOf (routineLines (chipRecords wiring) (bodyFor chips)) := by
  refine ⟨textOf (["", busCondition] ++ sectionComment "SPI and I2C bus structures" ++
    (busRecords wiring).map (recordLine "PinsBus") ++ sectionComment "Device bus main structure" ++
    [mainRecord wiring].map (recordLine "PinsDeviceBus") ++
    sectionComment "SPI and I2C device structures"), ?_⟩
  rw [← textOf_append, Block.sourceText, ending, busSource_eq, initializerLines_eq follows,
    routineLines]
  simp only [List.append_assoc]
  rfl

end Records

/-- After any run of devices, the source ends with the records of chips and the routine that
initializes the buses, the drivers and the chips of all devices in this order, one chip for each pin
that has a driver. -/
theorem initialization_in_order (guard : String) (signals : SignalIndex) (devices : List Device) :
    let draft := devices.foldl (Draft.add signals) (Draft.begun guard)
    ∃ front records body, draft.ended.sourceText = front ++ textOf (routineLines records body) ∧
      InitializesInOrder (devices.flatMap Device.driven) records body := by
  intro draft
  have wiring : draft.wiring = Wiring.empty.connectAll (devices.flatMap Device.connections) :=
    wiring_foldl_add signals devices (Draft.begun guard)
  have follows : draft.wiring.Follows
      ((devices.flatMap Device.driven).map DrivenPin.connection) := by
    rw [wiring, Device.map_connection_flatMap_driven]
    exact Wiring.follows_connectAll _
  obtain ⟨front, text⟩ := sourceText_ending follows
  refine ⟨draft.written.sourceText ++ front, _, _, ?_, initializesInOrder follows⟩
  rw [String.append_assoc, ← text]
  exact Block.sourceText_append _ _

/-- The first chip and the last have one driver and two buses; the second and the last share a bus. -/
theorem initialization_of_chipsOfTwoDevices :
    ∃ front records body,
      (chipsOfTwoDevices.foldl (Draft.add .empty) (Draft.begun "PINS_H_")).ended.sourceText =
        front ++ textOf (routineLines records body) ∧
      InitializesInOrder (chipsOfTwoDevices.flatMap Device.driven) records body ∧
      body.map InitialCall.line =
        ["    pins_init_bus(&pins_bus_spi_0);", "    pins_init_bus(&pins_bus_spi_18);",
          "    pins_init_bus(&pins_bus_analog_inputs_18);", "    mcp3208_initialize_driver();",
          "    dac8571_initialize_driver();", "    bh1750_initialize_driver();",
          "    mcp3208_initialize(&pins_device_spi_adc);",
          "    dac8571_initialize(&pins_device_spi_dac);",
          "    bh1750_initialize(&pins_device_analog_inputs_light);",
          "    mcp3208_initialize(&pins_device_spi_leds);"] := by
  obtain ⟨front, records, body, text, inOrder⟩ :=
    initialization_in_order "PINS_H_" .empty chipsOfTwoDevices
  refine ⟨front, records, body, text, inOrder, ?_⟩
  rw [inOrder.calls]
  decide +kernel

end PinTable.Listing
