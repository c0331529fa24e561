import PinTable.Proofs.Listing.Constants
import PinTable.Proofs.Listing.SpelledText
import PinTable.Proofs.OwnedPins

set_option autoImplicit false

namespace PinTable

open Reading

/-- The name, the tag and the driver of a pin are identifiers, and it refers to a chip by two. -/
structure Pin.WellNamed (pin : Pin) : Prop where
  name : isIdentifier pin.name = true
  tag : ∀ tag ∈ pin.tag, isIdentifier tag = true
  driver : ∀ driver ∈ pin.driver, isIdentifier driver = true
  device : ∀ reference ∈ pin.device, ChipReference reference

/-- The base name and the names of the pins are identifiers, whatever the name of the device. -/
structure Device.WellNamed (device : Device) : Prop where
  base : isIdentifier device.base = true
  pins : ∀ group ∈ device.groups, ∀ pin ∈ group.pins, pin.WellNamed

namespace Listing

open Device (Connection)

section Device

variable {device : Device}

theorem declared_wellNamed (named : device.WellNamed) (declared : Declared)
    (member : declared ∈ device.declared) :
    declared.pin.WellNamed ∧ ∀ tag ∈ declared.tag, isIdentifier tag = true := by
  obtain ⟨group, isGroup, isPin⟩ := List.mem_flatMap.1 member
  obtain ⟨pin, isHere, rfl⟩ := List.mem_map.1 isPin
  have names := named.pins group isGroup pin isHere
  exact ⟨⟨named.base, names.name⟩, names.tag⟩

theorem tableSpelled (signals : SignalIndex) (named : device.WellNamed) :
    TableSpelled (DeviceTable.ofDevice signals device) := by
  have follows := DeviceTable.ofDevice_follows signals device
  constructor
  case base => exact named.base
  case rows =>
    intro table isTable row isRow
    obtain ⟨group, isGroup, _, made⟩ :=
      DeviceTable.exists_group_of_mem_groupsOf _ _ _ _ table isTable
    obtain ⟨pin, isPin, linked, same⟩ := made row isRow
    have names := named.pins group isGroup pin isPin
    have known : ∀ next ∈ row.next, next.WellNamed := by
      intro next isNext
      have inside : (row.pin, some next) ∈ Declared.linksAfter [] device.declared := by
        rw [← DeviceTable.links_ofDevice signals device, ← isNext]
        exact List.mem_map_of_mem (List.mem_flatMap.2 ⟨table, isTable, isRow⟩)
      obtain ⟨declared, isDeclared, rfl⟩ :=
        List.mem_map.1 (Declared.mem_of_mem_linksAfter [] _ _ _ inside)
      exact (declared_wellNamed named declared isDeclared).1
    refine ⟨?_, known, ?_, ?_⟩ <;> rw [same]
    · exact ⟨named.base, names.name⟩
    · intro tag isTag
      apply names.tag
      simp only [DeviceTable.rowOf] at isTag
      split at isTag
      · exact isTag
      · cases isTag
    · intro symbol isSymbol
      obtain ⟨reference, isReference, rfl⟩ := Option.map_eq_some_iff.1 isSymbol
      exact isIdentifier_deviceSymbol _ _ named.base (names.device reference isReference)
  case heads =>
    rintro ⟨tag, pin⟩ isHead
    have inside : tag ∈ (DeviceTable.ofDevice signals device).tags.headPins.map Prod.fst :=
      List.mem_map_of_mem isHead
    rw [follows.map_headPins, Declared.map_fst_tagged, List.mem_eraseDups] at inside
    obtain ⟨tagged, isTagged, isTag⟩ := List.mem_filterMap.1 inside
    have last := follows.getLast?_of_mem_headPins tag pin isHead
    rw [Declared.itemsOf_tagged] at last
    obtain ⟨declared, isDeclared, rfl⟩ := List.mem_map.1 (List.mem_of_getLast? last)
    exact ⟨(declared_wellNamed named tagged isTagged).2 tag isTag,
      (declared_wellNamed named declared (List.mem_filter.1 isDeclared).1).1⟩

theorem connection_named (named : device.WellNamed) (call : Connection)
    (member : call ∈ device.connections) : Named call.pin call.driver := by
  obtain ⟨group, isGroup, pin, isPin, isDriver, same⟩ := Device.exists_pin_of_mem_connections member
  have names := named.pins group isGroup pin isPin
  rw [same]
  exact ⟨named.base, names.name, names.driver call.driver isDriver⟩

end Device

theorem wiringSpelled {wiring : Wiring} {calls : List Connection} (follows : wiring.Follows calls)
    (named : ∀ call ∈ calls, Named call.pin call.driver)
    (positive : ∀ call ∈ calls, 0 ≤ call.clock) : WiringSpelled wiring := by
  constructor
  case buses =>
    intro bus member
    obtain ⟨call, isCall, id⟩ := exists_call_of_bus follows bus member
    have base : isIdentifier bus.id.base = true := by
      rw [← id]
      exact (named call isCall).base
    rw [Bus.symbol, isIdentifier_busSymbol_iff _ base, ← id]
    exact positive call isCall
  case pins =>
    intro chip member
    obtain ⟨call, isCall, pin, _⟩ := exists_call_of_chip follows chip member
    rw [pin]
    exact ⟨(named call isCall).base, (named call isCall).name⟩
  case chipDrivers =>
    intro chip member
    obtain ⟨call, isCall, _, driver⟩ := exists_call_of_chip follows chip member
    rw [driver]
    exact (named call isCall).driver
  case drivers =>
    intro driver member
    rw [follows.drivers, List.mem_eraseDups] at member
    obtain ⟨call, isCall, rfl⟩ := List.mem_map.1 member
    exact (named call isCall).driver

end Listing

namespace Device

/-- The pins of a device that interrupt. -/
def interruptPins (device : Device) : List QualifiedPin :=
  device.groups.flatMap fun group =>
    (group.pins.filter fun pin => (Settings.ofPin group.kind pin).interrupts).map fun pin =>
      ⟨device.base, group.kind, pin.name⟩

/-- The symbols that a device needs: arrays of settings, interrupt configurations, list heads,
constants, buses, chips, and the entry points of drivers. -/
def symbols (device : Device) : List String :=
  device.declared.map (fun pin => pin.pin.settingsArray) ++
    device.interruptPins.map QualifiedPin.interruptSymbol ++
    device.tags.map (tagSymbol device.base) ++
    device.nameConstants.map NameConstant.symbol ++
    device.connections.flatMap fun chip => chip.busId.symbol :: chip.pin.busDeviceSymbol ::
      Listing.entryPoints.map fun entry => entry.name chip.driver

end Device

namespace Listing

open Device (Connection)

section Device

variable {device : Device}

/-- Each pin has a row, with its settings. -/
theorem exists_row (signals : SignalIndex) (group : PinGroup) (isGroup : group ∈ device.groups)
    (pin : Pin) (isPin : pin ∈ group.pins) :
    ∃ table ∈ (DeviceTable.ofDevice signals device).groups, ∃ row ∈ table.rows,
      row.pin = ⟨device.base, group.kind, pin.name⟩ ∧
        row.settings = Settings.ofPin group.kind pin := by
  have isOwned : ⟨device.base, group.kind, pin⟩ ∈ device.owned :=
    (device.mem_owned_iff _).2 ⟨group, isGroup, pin, isPin, rfl⟩
  obtain ⟨row, isRow, has⟩ := exists_of_forall₂ (DeviceTable.hasRow_each signals device) isOwned
  obtain ⟨table, isTable, isHere⟩ := List.mem_flatMap.1 isRow
  exact ⟨table, isTable, row, isHere, has.pin, has.settings⟩

theorem mem_groupDefinitions {group : GroupTable} {row : Row} (isRow : row ∈ group.rows)
    {line : String} (isLine : line ∈ rowDefinitions row) : line ∈ groupDefinitions group := by
  have filled : group.rows.isEmpty = false := by
    rw [List.isEmpty_eq_false_iff]
    exact List.ne_nil_of_mem isRow
  rw [groupDefinitions, filled, if_neg Bool.false_ne_true]
  exact List.mem_append_right _ (List.mem_flatMap.2 ⟨row, isRow, isLine⟩)

theorem definition_mem_deviceSource {table : DeviceTable} {group : GroupTable} {row : Row}
    (isGroup : group ∈ table.groups) (isRow : row ∈ group.rows) {line : String}
    (isLine : line ∈ rowDefinitions row) : line ∈ deviceSource table := by
  simp only [deviceSource, List.mem_append]
  exact .inl (.inl (.inl (.inl
    (List.mem_flatMap.2 ⟨group, isGroup, mem_groupDefinitions isRow isLine⟩))))

theorem array_shown (signals : SignalIndex) (named : device.WellNamed) (pin : Declared)
    (isPin : pin ∈ device.declared) :
    pin.pin.settingsArray ∈ symbolsAmong (deviceBlock signals device).source := by
  obtain ⟨group, isGroup, isHere⟩ := List.mem_flatMap.1 isPin
  obtain ⟨known, isKnown, rfl⟩ := List.mem_map.1 isHere
  obtain ⟨table, isTable, row, isRow, same, -⟩ := exists_row signals group isGroup known isKnown
  have wellNamed := (declared_wellNamed named _ isPin).1
  have line : arrayLine row ∈ deviceSource (DeviceTable.ofDevice signals device) := by
    apply definition_mem_deviceSource isTable isRow
    unfold rowDefinitions
    split <;> exact List.mem_cons_self
  unfold arrayLine at line
  rw [same] at line
  simp only [String.append_assoc] at line
  exact identifier_mem_symbolsAmong _ arrayStart _ _ line wellNamed.settingsArray
    (by decide) (startsApart_append _ _ (by decide)) ⟨'s', rfl, by decide⟩

theorem interrupt_shown (signals : SignalIndex) (named : device.WellNamed) (pin : QualifiedPin)
    (isPin : pin ∈ device.interruptPins) :
    pin.interruptSymbol ∈ symbolsAmong (deviceBlock signals device).source := by
  obtain ⟨group, isGroup, isHere⟩ := List.mem_flatMap.1 isPin
  obtain ⟨known, isKnown, rfl⟩ := List.mem_map.1 isHere
  obtain ⟨isKnown, interrupts⟩ := List.mem_filter.1 isKnown
  obtain ⟨table, isTable, row, isRow, same, settings⟩ :=
    exists_row signals group isGroup known isKnown
  have wellNamed : QualifiedPin.WellNamed ⟨device.base, group.kind, known.name⟩ :=
    ⟨named.base, (named.pins group isGroup known isKnown).name⟩
  have line : interruptLine row ∈ deviceSource (DeviceTable.ofDevice signals device) := by
    apply definition_mem_deviceSource isTable isRow
    rw [rowDefinitions, settings, if_pos interrupts]
    exact List.mem_cons_of_mem _ List.mem_cons_self
  unfold interruptLine at line
  rw [same, String.append_assoc] at line
  exact identifier_mem_symbolsAmong _ "PINS_INTCONF_STRUCT(" _ ")" line wellNamed.interruptSymbol
    (by decide) (by decide) ⟨'P', rfl, by decide⟩

theorem head_shown (signals : SignalIndex) (named : device.WellNamed) (tag : String)
    (isTag : tag ∈ device.tags) :
    tagSymbol device.base tag ∈ symbolsAmong (deviceBlock signals device).header := by
  have follows := DeviceTable.ofDevice_follows signals device
  have known : tag ∈ (DeviceTable.ofDevice signals device).tags.headPins.map Prod.fst := by
    rwa [follows.map_headPins, Declared.map_fst_tagged]
  obtain ⟨head, isHead, rfl⟩ := List.mem_map.1 known
  have filled : (DeviceTable.ofDevice signals device).tags.isEmpty ≠ true := by
    rw [Ne, follows.isEmpty_iff]
    intro none
    rw [follows.map_headPins, none] at known
    cases known
  have line : headDeclaration device.base head ∈
      deviceHeader (DeviceTable.ofDevice signals device) := by
    rw [deviceHeader, headsSection, if_neg filled]
    exact List.mem_append_left _
      (List.mem_append_right _ (List.mem_append_right _ (List.mem_map_of_mem isHead)))
  unfold headDeclaration at line
  rw [String.append_assoc] at line
  have isTagName := ((tableSpelled signals named).heads head isHead).1
  exact identifier_mem_symbolsAmong _ "extern OS_FLASH_MEM_H Pin *" _ ";" line
    (isIdentifier_tagSymbol _ _ named.base isTagName) (by decide) (by decide)
    ⟨'e', rfl, by decide⟩

theorem constant_shown (signals : SignalIndex) (named : device.WellNamed) (constant : NameConstant)
    (isConstant : constant ∈ device.nameConstants) :
    constant.symbol ∈ symbolsAmong (deviceBlock signals device).header := by
  have line : constant.text ∈ deviceHeader (DeviceTable.ofDevice signals device) := by
    have inTable := (perm_constants_ofDevice signals device).mem_iff.2 isConstant
    exact List.mem_append_right _ (List.mem_append_right _ (List.mem_map_of_mem inTable))
  have identifier : isIdentifier constant.symbol = true := by
    rcases List.mem_append.1 isConstant with isPin | isTag
    · obtain ⟨pin, isDeclared, rfl⟩ := List.mem_map.1 isPin
      exact isIdentifier_uppercase _ (declared_wellNamed named pin isDeclared).1.joined
    · obtain ⟨tag, isHere, rfl⟩ := List.mem_map.1 isTag
      obtain ⟨pin, isDeclared, tagged⟩ := List.mem_filterMap.1 (List.mem_eraseDups.1 isHere)
      have isName := (declared_wellNamed named pin isDeclared).2 tag tagged
      exact isIdentifier_uppercase _ (isIdentifier_append _ "_GROUP"
        (isIdentifier_underscore _ _ named.base (all_isIdentifierChar _ isName)) (by decide))
  unfold NameConstant.text at line
  simp only [String.append_assoc] at line
  exact identifier_mem_symbolsAmong _ "#define " _ _ line identifier (by decide)
    (startsApart_append _ _ (by decide)) ⟨'#', rfl, by decide⟩

end Device

/-- The symbol of a bus stands alone even where it is no identifier. -/
theorem symbolsIn_busSymbol (id : BusId) (base : isIdentifier id.base = true) :
    symbolsIn id.symbol = [id.symbol] := by
  have fixed : isIdentifier (id.base ++ "_bus_" ++ id.kind.name ++ "_") = true :=
    isIdentifier_append _ "_" (isIdentifier_append _ _
      (isIdentifier_append _ "_bus_" base (by decide)) (all_kindName _)) (by decide)
  obtain ⟨c, first, starts⟩ := start_of_isIdentifier _ fixed
  apply symbolsIn_of_start
  · intro c member
    rw [BusId.symbol, String.toList_append, List.mem_append] at member
    rcases member with inside | inClock
    · exact isPunctuation_of_isIdentifierChar c (isIdentifierChar_of_mem _ fixed c inside)
    · exact isPunctuation_of_mem_intText _ c inClock
  · exact ⟨c, head?_append_of_head? _ _ c first, starts⟩

section Connections

variable {calls : List Connection} (call : Connection) (isCall : call ∈ calls)

include isCall

theorem bus_shown (named : Named call.pin call.driver) :
    call.busId.symbol ∈ symbolsAmong (busBlock calls).header := by
  have known : call.busId ∈ (Wiring.empty.connectAll calls).buses.map Bus.id := by
    rw [(Wiring.follows_connectAll calls).map_id_buses, List.mem_eraseDups]
    exact List.mem_map_of_mem isCall
  obtain ⟨bus, isBus, same⟩ := List.mem_map.1 known
  have line : "extern PinsBus " ++ bus.symbol ++ ";" ∈ (busBlock calls).header := by
    simp only [busBlock, ending, busHeader, List.mem_append]
    exact .inl (.inl (.inl (.inl (.inl (.inl (.inl (.inl (.inr
      (List.mem_map.2 ⟨bus, isBus, rfl⟩)))))))))
  rw [Bus.symbol, same, String.append_assoc] at line
  exact mem_symbolsAmong _ "extern PinsBus " _ ";" line (symbolsIn_busSymbol _ named.base)
    (by decide) (by decide) ⟨'e', rfl, by decide⟩

theorem chip_declared :
    "extern PinsBusDevice " ++ call.pin.busDeviceSymbol ++ ";" ∈ (busBlock calls).header := by
  obtain ⟨chip, isChip, connects⟩ :=
    exists_of_forall₂ (Wiring.follows_connectAll calls).connects isCall
  rw [← connects.pin]
  simp only [busBlock, ending, busHeader, List.mem_append]
  exact .inl (.inl (.inl (.inl (.inr (List.mem_map.2 ⟨chip, isChip, rfl⟩)))))

theorem chip_shown (named : Named call.pin call.driver) :
    call.pin.busDeviceSymbol ∈ symbolsAmong (busBlock calls).header := by
  have line := chip_declared call isCall
  rw [String.append_assoc] at line
  have wellNamed : call.pin.WellNamed := ⟨named.base, named.name⟩
  exact identifier_mem_symbolsAmong _ "extern PinsBusDevice " _ ";" line
    wellNamed.busDeviceSymbol (by decide) (by decide) ⟨'e', rfl, by decide⟩

theorem entryPoint_shown (named : Named call.pin call.driver) (entry : EntryPoint)
    (isEntry : entry ∈ entryPoints) :
    entry.name call.driver ∈ symbolsAmong (busBlock calls).header := by
  have known : call.driver ∈ (Wiring.empty.connectAll calls).drivers := by
    rw [(Wiring.follows_connectAll calls).drivers, List.mem_eraseDups]
    exact List.mem_map_of_mem isCall
  have inDriver : entry.prototype call.driver ∈ driverLines call.driver := by
    rw [driverLines_eq]
    exact List.mem_append_right _ (List.mem_map_of_mem isEntry)
  have line : entry.prototype call.driver ∈ (busBlock calls).header := by
    simp only [busBlock, ending, busHeader, List.mem_append]
    exact .inl (.inl (.inl (.inr (List.mem_flatMap.2 ⟨_, known, inDriver⟩))))
  have parts : ∀ entry ∈ entryPoints, entry.suffix.toList.all isIdentifierChar = true ∧
      endsApart (entry.result ++ " ") = true ∧
      ((entry.result ++ " ").toList.head?.any fun c => c ∉ ['/', ' ']) = true := by
    decide
  obtain ⟨suffix, ends, starts⟩ := parts entry isEntry
  obtain ⟨c, first, other⟩ := (Option.any_eq_true _ _).1 starts
  rw [EntryPoint.prototype, ← String.append_assoc] at line
  exact identifier_mem_symbolsAmong _ _ _ _ line (isIdentifier_append _ _ named.driver suffix) ends
    (startsApart_append _ _ (by decide)) ⟨c, first, of_decide_eq_true other⟩

end Connections

/-- The lines of a block, header first. -/
def bothOf (block : Block) : List String := block.header ++ block.source

theorem spelled_beginning (paths : TargetPaths) :
    ∀ line ∈ bothOf (beginning paths.guard), SpelledLine line := by
  have guard := spelled_identifier _ paths.isIdentifier_guard
  have directive : ∀ start, Opens start → start.toList.head? = some '#' →
      SpelledLine (start ++ paths.guard) := by
    intro start opens first
    refine (opens.append guard).line (not_row _ ?_)
    rw [head?_append_of_head? _ _ '#' first]
    decide
  have marker : SpelledLine markerLine := spelledLine_comment _ rfl
  simp only [bothOf, beginning, List.forall_mem_append, List.forall_mem_cons, List.not_mem_nil,
    false_implies, implies_true, and_true]
  exact ⟨⟨marker, directive "#ifndef " (by decide) rfl,
    directive "#define " (by decide) rfl, by decide⟩, marker, by decide⟩

section Files

variable (guard : String) (signals : SignalIndex) (manifests : List Manifest)

theorem mem_bothOf_ofManifests (line : String) :
    line ∈ bothOf (ofManifests guard signals manifests) ↔
      ∃ block ∈ blocksOf guard signals (manifests.flatMap Manifest.devices),
        line ∈ bothOf block := by
  simp only [bothOf, List.mem_append, mem_header_ofManifests, mem_source_ofManifests, and_or_left,
    exists_or]

/-- Each symbol that a device needs is in its block or in that of the buses. -/
theorem symbol_shown (named : ∀ device ∈ manifests.flatMap Manifest.devices, device.WellNamed)
    (device : Device) (isDevice : device ∈ manifests.flatMap Manifest.devices) (symbol : String)
    (isSymbol : symbol ∈ device.symbols) :
    symbol ∈ symbolsAmong (bothOf (ofManifests guard signals manifests)) := by
  have names := named device isDevice
  have whole : ∀ block ∈ blocksOf guard signals (manifests.flatMap Manifest.devices),
      symbolsAmong (bothOf block) ⊆
        symbolsAmong (bothOf (ofManifests guard signals manifests)) :=
    fun block isBlock => symbolsAmong_subset fun line isLine =>
      (mem_bothOf_ofManifests _ _ _ line).2 ⟨block, isBlock, isLine⟩
  have ofDevice := whole _ (List.mem_cons_of_mem _ (List.mem_cons_of_mem _
    (List.mem_map_of_mem isDevice)))
  have ofBuses := whole _ (List.mem_cons_of_mem _ List.mem_cons_self)
  have header : ∀ block : Block, symbolsAmong block.header ⊆ symbolsAmong (bothOf block) :=
    fun block => symbolsAmong_subset (List.subset_append_left _ _)
  have source : ∀ block : Block, symbolsAmong block.source ⊆ symbolsAmong (bothOf block) :=
    fun block => symbolsAmong_subset (List.subset_append_right _ _)
  simp only [Device.symbols, List.mem_append] at isSymbol
  rcases isSymbol with (((isArray | isInterrupt) | isHead) | isConstant) | isWired
  · obtain ⟨pin, isPin, rfl⟩ := List.mem_map.1 isArray
    exact ofDevice (source _ (array_shown signals names pin isPin))
  · obtain ⟨pin, isPin, rfl⟩ := List.mem_map.1 isInterrupt
    exact ofDevice (source _ (interrupt_shown signals names pin isPin))
  · obtain ⟨tag, isTag, rfl⟩ := List.mem_map.1 isHead
    exact ofDevice (header _ (head_shown signals names tag isTag))
  · obtain ⟨constant, isHere, rfl⟩ := List.mem_map.1 isConstant
    exact ofDevice (header _ (constant_shown signals names constant isHere))
  · obtain ⟨chip, isChip, isHere⟩ := List.mem_flatMap.1 isWired
    have isCall := List.mem_flatMap.2 ⟨device, isDevice, isChip⟩
    have chipNamed := connection_named names chip isChip
    apply ofBuses
    apply header
    rcases List.mem_cons.1 isHere with rfl | isHere
    · exact bus_shown chip isCall chipNamed
    rcases List.mem_cons.1 isHere with rfl | isEntry
    · exact chip_shown chip isCall chipNamed
    · obtain ⟨entry, isKnown, rfl⟩ := List.mem_map.1 isEntry
      exact entryPoint_shown chip isCall chipNamed entry isKnown

end Files

/-- Every symbol in the files is an identifier if no clock line is below zero. -/
theorem spelled_blocksOf (paths : TargetPaths) (signals : SignalIndex) (devices : List Device)
    (named : ∀ device ∈ devices, device.WellNamed)
    (positive : ∀ device ∈ devices, ∀ chip ∈ device.connections, 0 ≤ chip.clock) :
    ∀ block ∈ blocksOf paths.guard signals devices, ∀ line ∈ bothOf block, SpelledLine line := by
  have wiring : WiringSpelled (Wiring.empty.connectAll (devices.flatMap Device.connections)) := by
    apply wiringSpelled (Wiring.follows_connectAll _)
    · intro chip member
      obtain ⟨device, isDevice, isChip⟩ := List.mem_flatMap.1 member
      exact connection_named (named device isDevice) chip isChip
    · intro chip member
      obtain ⟨device, isDevice, isChip⟩ := List.mem_flatMap.1 member
      exact positive device isDevice chip isChip
  have device : ∀ device ∈ devices, ∀ line ∈ bothOf (deviceBlock signals device),
      SpelledLine line := by
    intro device isDevice
    have table := tableSpelled signals (named device isDevice)
    exact List.forall_mem_append.2 ⟨spelled_deviceHeader table, spelled_deviceSource table⟩
  refine List.forall_mem_cons.2 ⟨spelled_beginning paths, List.forall_mem_cons.2 ⟨?_, ?_⟩⟩
  · exact List.forall_mem_append.2 ⟨spelled_header_ending wiring, spelled_busSource wiring⟩
  · exact List.forall_mem_map.2 device

/-- The files hold every symbol that their devices need. All symbols in them are identifiers exactly
if no clock line is below zero. -/
theorem symbols_identifiers_iff (paths : TargetPaths) (signals : SignalIndex)
    (manifests : List Manifest)
    (named : ∀ device ∈ manifests.flatMap Manifest.devices, device.WellNamed) :
    let shown := symbolsAmong (bothOf (ofManifests paths.guard signals manifests))
    (∀ device ∈ manifests.flatMap Manifest.devices, ∀ symbol ∈ device.symbols, symbol ∈ shown) ∧
    ((∀ symbol ∈ shown, isIdentifier symbol = true) ↔
      ∀ device ∈ manifests.flatMap Manifest.devices, ∀ chip ∈ device.connections,
        0 ≤ chip.clock) := by
  intro shown
  have complete : ∀ device ∈ manifests.flatMap Manifest.devices, ∀ symbol ∈ device.symbols,
      symbol ∈ shown := symbol_shown paths.guard signals manifests named
  refine ⟨complete, ?_, ?_⟩
  · intro identifiers device isDevice chip isChip
    have isSymbol : chip.busId.symbol ∈ device.symbols :=
      List.mem_append_right _ (List.mem_flatMap.2 ⟨chip, isChip, List.mem_cons_self⟩)
    have base := (connection_named (named device isDevice) chip isChip).base
    exact (isIdentifier_busSymbol_iff chip.busId base).1
      (identifiers _ (complete device isDevice _ isSymbol))
  · intro positive
    refine (forall_mem_symbolsAmong _).2 fun line isLine => ?_
    obtain ⟨block, isBlock, inBlock⟩ := (mem_bothOf_ofManifests _ _ _ line).1 isLine
    exact spelled_blocksOf paths signals _ named positive block isBlock line inBlock

/-- A device with a converter on a bus. -/
def deviceOfClock (clock : String) : Device :=
  ⟨"ioblock", "pins", [⟨.spi, [⟨"adc", 0, 0, some "panel", some "mcp3208", some "spi.adc",
    [⟨"sclk", .string clock⟩], .root "io.json"⟩], .root "io.json"⟩], .root "io.json"⟩

theorem wellNamed_deviceOfClock (clock : String) : (deviceOfClock clock).WellNamed := by
  have chip : ChipReference "spi.adc" := ⟨"spi", "adc", by decide, by decide, by decide⟩
  obtain ⟨base, name, tag, driver⟩ : isIdentifier "pins" = true ∧ isIdentifier "adc" = true ∧
      isIdentifier "panel" = true ∧ isIdentifier "mcp3208" = true := by
    decide
  refine ⟨base, List.forall_mem_singleton.2 (List.forall_mem_singleton.2 ⟨name, ?_, ?_, ?_⟩)⟩
  · rintro _ ⟨⟩
    exact tag
  · rintro _ ⟨⟩
    exact driver
  · rintro _ ⟨⟩
    exact chip

theorem symbols_identifiers_deviceOfClock :
    let manifests : List Manifest := [⟨[deviceOfClock "18"]⟩]
    (∀ device ∈ manifests.flatMap Manifest.devices, device.WellNamed) ∧
    ∀ symbol ∈ symbolsAmong (bothOf (ofManifests (TargetPaths.beside "io.json").guard .empty
      manifests)), isIdentifier symbol = true := by
  intro manifests
  have named : ∀ device ∈ manifests.flatMap Manifest.devices, device.WellNamed :=
    List.forall_mem_singleton.2 (wellNamed_deviceOfClock "18")
  refine ⟨named, ?_⟩
  exact (symbols_identifiers_iff (TargetPaths.beside "io.json") .empty manifests named).2.2
    (by decide +kernel)

/-- A clock line below zero leaves a minus sign in the symbol of its bus. -/
theorem busSymbol_no_identifier_deviceOfClock :
    let manifests : List Manifest := [⟨[deviceOfClock "-3"]⟩]
    (∀ device ∈ manifests.flatMap Manifest.devices, device.WellNamed) ∧
    "pins_bus_spi_-3" ∈ symbolsAmong (bothOf (ofManifests (TargetPaths.beside "io.json").guard .empty
      manifests)) ∧ isIdentifier "pins_bus_spi_-3" = false := by
  intro manifests
  have named : ∀ device ∈ manifests.flatMap Manifest.devices, device.WellNamed :=
    List.forall_mem_singleton.2 (wellNamed_deviceOfClock "-3")
  refine ⟨named, ?_, by decide⟩
  exact symbol_shown _ .empty manifests named (deviceOfClock "-3") List.mem_cons_self _
    (by decide +kernel)

end Listing

end PinTable
