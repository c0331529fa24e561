import PinTable.Proofs.Listing.RowUses
import PinTable.Proofs.OwnedPins

set_option autoImplicit false

namespace PinTable.Listing

open Reading

variable {table : DeviceTable}

/-- Only the sections in front of the table are on arrays. -/
theorem arraysTitle_not_mem (table : DeviceTable) (kind : PinKind) :
    arraysTitle kind ∉ tableTitles table ++ headsTitles table := by
  have last : (arraysTitle kind).toList.getLast? ≠ some 'e' := by
    cases kind <;> decide
  have list : arraysTitle kind ≠ "List of pin type groups" := by
    cases kind <;> decide
  have heads : arraysTitle kind ∉ headsTitles table := by
    unfold headsTitles
    split
    · exact List.not_mem_nil
    · rw [List.mem_singleton]
      cases kind <;> decide
  simp only [tableTitles, List.mem_append, List.mem_cons, List.not_mem_nil, or_false, not_or]
  exact ⟨⟨ne_append_of_last _ _ _ 'e' rfl last, list, ne_append_of_last _ _ _ 'e' rfl last⟩, heads⟩

theorem titles_sourceBehind (table : DeviceTable) :
    titlesAmong (sectionComment (table.title ++ " IO configuration structure") ++
      baseLine table.base :: sourceBehind table) = tableTitles table ++ headsTitles table := by
  have lines : sectionComment (table.title ++ " IO configuration structure") ++
      baseLine table.base :: sourceBehind table =
        tableLines table ++ (groupListLines table ++ (topLines table ++
          headsSection table (headDefinition table.base))) ++ [""] := by
    rw [tableLines_eq, sourceBehind]
    simp only [List.append_assoc, List.cons_append, List.nil_append]
  have last : titlesAmong [""] = [] := rfl
  rw [lines, titlesAmong_append, titles_behind_definitions, last, List.append_nil]

/-- The section on the arrays of a group: its title, and behind it an array for each pin. -/
def IsArraysSection (base : String) (group : PinGroup) (lines : List String) : Prop :=
  ∃ definitions, lines = sectionComment (arraysTitle group.kind) ++ definitions ∧
    titlesAmong definitions = [] ∧
    (arraysAmong definitions).map SourceRecord.symbol =
      group.pins.map fun pin => QualifiedPin.settingsArray ⟨base, group.kind, pin.name⟩

/-- The table of a group, whose names are words. -/
structure TableOfGroup (base : String) (group : PinGroup) (table : GroupTable) : Prop where
  kind : table.kind = group.kind
  pins : table.rows.map Row.pin = group.pins.map fun pin => ⟨base, group.kind, pin.name⟩
  worded : ∀ row ∈ table.rows, Word row.pin.base ∧ Word row.pin.name

namespace TableOfGroup

variable {base : String} {group : PinGroup} {table : GroupTable}
  (tableOf : TableOfGroup base group table)

include tableOf

theorem isEmpty_eq : table.rows.isEmpty = group.pins.isEmpty := by
  have lengths := congrArg List.length tableOf.pins
  rw [List.length_map, List.length_map] at lengths
  rw [Bool.eq_iff_iff, List.isEmpty_iff_length_eq_zero, List.isEmpty_iff_length_eq_zero, lengths]

theorem isArraysSection (filled : table.rows.isEmpty = false) :
    IsArraysSection base group (groupDefinitions table) := by
  refine ⟨table.rows.flatMap rowDefinitions, ?_, ?_, ?_⟩
  · rw [groupDefinitions_filled table filled, tableOf.kind]
  · exact titles_rowDefinitions table.rows
  · have arrays := arrays_groupDefinitions table tableOf.worded
    rw [groupDefinitions_filled table filled, List.filterMap_append,
      filterMap_array?_eq_nil _ (sectionComment_start _ 's' (by decide)), List.nil_append] at arrays
    have symbols := congrArg (List.map QualifiedPin.settingsArray) tableOf.pins
    rw [List.map_map, List.map_map] at symbols
    rw [arraysAmong, arrays, List.map_map]
    exact symbols

end TableOfGroup

/-- The lines of a block in front of the line that begins its table, and those behind it. The rows
behind use what is defined in front. -/
structure DefinesFirst (device : Device) (before after : List String) : Prop where
  begunOnce : baseLine device.base ∉ before ∧ baseLine device.base ∉ after
  /-- There is a row for each pin. -/
  rows : (usesAmong after).map RowUse.name =
    device.groups.flatMap fun group => group.pins.map Pin.name
  /-- The array that a row uses is defined once, in front, and tells whether the row uses an
  interrupt. -/
  arrays : ∀ use ∈ usesAmong after, ∃ array ∈ arraysAmong before, array.symbol = use.array ∧
    ((arraysAmong (before ++ baseLine device.base :: after)).map SourceRecord.symbol).count
      use.array = 1 ∧
    ("PIN_INTERRUPT_ENABLED" ∈ array.entries ↔ ∃ symbol, use.interrupt = interruptUse symbol)
  noInterrupts : ∀ use ∈ usesAmong after, (∀ symbol, use.interrupt ≠ interruptUse symbol) →
    use.interrupt = noInterruptUse
  /-- An interrupt is configured just if a row uses it. -/
  interrupts : ∀ symbol, interruptPart symbol ∈ before ++ baseLine device.base :: after ↔
    ∃ use ∈ usesAmong after, use.interrupt = interruptUse symbol
  interruptsOnce : ∀ symbol, interruptPart symbol ∈ before ++ baseLine device.base :: after →
    interruptPart symbol ∈ before ∧
      (before ++ baseLine device.base :: after).count (interruptPart symbol) = 1
  /-- In front stand the sections on the arrays of the groups that have pins. -/
  sections : ∃ sections rest, before = List.flatten sections ++ rest ∧
    List.Forall₂ (IsArraysSection device.base)
      (device.groups.filter fun group => !group.pins.isEmpty) sections ∧
    ∀ kind, arraysTitle kind ∉ titlesAmong (rest ++ baseLine device.base :: after)

section Device

variable {signals : SignalIndex} {device : Device}
  (distinct : (device.groups.flatMap fun group => group.pins.map Pin.name).Nodup)

theorem map_name_rows (signals : SignalIndex) (device : Device) :
    (DeviceTable.ofDevice signals device).rows.map (fun row => row.pin.name) =
      device.groups.flatMap fun group => group.pins.map Pin.name := by
  have same : ∀ owned row, OwnedPin.HasRow owned row → owned.pin.name = row.pin.name :=
    fun owned row hasRow => (congrArg QualifiedPin.name hasRow.pin).symm
  rw [← map_eq_of_forall₂ ((DeviceTable.hasRow_each signals device).imp same), Device.owned,
    List.map_flatMap]
  refine List.flatMap_congr fun group _ => ?_
  rw [List.map_map]
  rfl

theorem base_of_mem_rows {row : Row} (isRow : row ∈ (DeviceTable.ofDevice signals device).rows) :
    row.pin.base = device.base := by
  obtain ⟨owned, isOwned, hasRow⟩ :=
    exists_of_forall₂ (DeviceTable.hasRow_each signals device).flip isRow
  rw [hasRow.pin, OwnedPin.qualified, Device.base_of_mem_owned isOwned]

include distinct in
/-- Symbols that tell the names of pins are different for different rows. -/
theorem nodup_map_rows {symbol : Row → String}
    (tells : ∀ row other : Row, row.pin.base = other.pin.base → symbol row = symbol other →
      row.pin.name = other.pin.name) :
    ((DeviceTable.ofDevice signals device).rows.map symbol).Nodup := by
  rw [← map_name_rows signals device] at distinct
  refine List.Nodup.map_on (fun row isRow other isOther same => ?_) distinct.of_map
  refine List.inj_on_of_nodup_map distinct isRow isOther (tells row other ?_ same)
  rw [base_of_mem_rows isRow, base_of_mem_rows isOther]

include distinct in
theorem nodup_settingsArray :
    ((DeviceTable.ofDevice signals device).rows.map fun row => row.pin.settingsArray).Nodup := by
  refine nodup_map_rows distinct fun row other base same => ?_
  rcases (QualifiedPin.settingsArray_eq_iff _ _).1 same with pins | clashes | clashes
  · rw [pins]
  · exact absurd base clashes.ne
  · exact absurd base.symm clashes.ne

include distinct in
theorem nodup_interruptSymbol :
    ((DeviceTable.ofDevice signals device).rows.map fun row => row.pin.interruptSymbol).Nodup := by
  refine nodup_map_rows distinct fun row other base same => ?_
  rw [QualifiedPin.interruptSymbol, QualifiedPin.interruptSymbol, base, String.append_left_inj,
    String.append_right_inj] at same
  exact same

theorem mem_interruptsOf (rows : List Row) (symbol : String) : symbol ∈ interruptsOf rows ↔
    ∃ use ∈ rows.map useOf, use.interrupt = interruptUse symbol := by
  simp only [interruptsOf, List.mem_map, List.mem_filter, exists_exists_and_eq_and, useOf,
    interruptPointer_eq_iff, and_assoc]

include distinct in
theorem nodup_interruptsOf :
    (interruptsOf (DeviceTable.ofDevice signals device).rows).Nodup :=
  (nodup_interruptSymbol distinct).sublist (List.filter_sublist.map _)

theorem tableOfGroup_each (named : DeviceNamed signals device) :
    List.Forall₂ (TableOfGroup device.base) device.groups
      (DeviceTable.ofDevice signals device).groups := by
  have worded := (tableWorded named).rows
  have words : ∀ table ∈ (DeviceTable.ofDevice signals device).groups, ∀ row ∈ table.rows,
      Word row.pin.base ∧ Word row.pin.name := fun table isTable row isRow =>
    ⟨(worded table isTable row isRow).base, (worded table isTable row isRow).name⟩
  have same := forall₂_of_map_eq
    (DeviceTable.pins_groupsOf signals device.base device.groups TagChains.empty)
  have each : List.Forall₂ (fun table group => TableOfGroup device.base group table)
      (DeviceTable.ofDevice signals device).groups device.groups :=
    ((List.forall₂_and_left _ _).2 ⟨words, same⟩).imp fun table group both =>
      ⟨(Prod.mk.inj both.2).1, (Prod.mk.inj both.2).2, both.1⟩
  exact each.flip

theorem isArraysSection_each (named : DeviceNamed signals device) :
    List.Forall₂ (IsArraysSection device.base)
      (device.groups.filter fun group => !group.pins.isEmpty)
      ((filledGroups (DeviceTable.ofDevice signals device)).map groupDefinitions) := by
  rw [List.forall₂_map_right_iff]
  have filled : List.Forall₂ (TableOfGroup device.base)
      (device.groups.filter fun group => !group.pins.isEmpty)
      (filledGroups (DeviceTable.ofDevice signals device)) := by
    refine List.rel_filter (fun group table tableOf => ?_) (tableOfGroup_each named)
    show (!group.pins.isEmpty) = true ↔ (!table.rows.isEmpty) = true
    rw [tableOf.isEmpty_eq]
  have each := (List.forall₂_and_left _ _).2
    ⟨fun _ => isEmpty_of_mem_filledGroups, filled.flip⟩
  exact (each.imp fun table group both => both.2.isArraysSection both.1).flip

include distinct in
theorem definesFirst (named : DeviceNamed signals device) :
    DefinesFirst device (sourceFront (DeviceTable.ofDevice signals device))
      (sourceBehind (DeviceTable.ofDevice signals device)) := by
  let table := DeviceTable.ofDevice signals device
  let lines := sourceFront table ++ baseLine device.base :: sourceBehind table
  have worded := tableWorded named
  have uses := uses_sourceBehind worded
  have arrays : arraysAmong lines = table.rows.map arrayOf := by
    have behind : arraysAmong (baseLine device.base :: sourceBehind table) = [] :=
      arrays_sourceBehind table
    rw [arraysAmong_append, arrays_sourceFront worded, behind, List.append_nil]
  have interrupts : interruptsAmong lines = interruptsOf table.rows := by
    have behind : interruptsAmong (baseLine device.base :: sourceBehind table) = [] :=
      interrupts_sourceBehind table
    rw [interruptsAmong_append, interrupts_sourceFront, behind, List.append_nil]
  constructor
  case begunOnce => exact ⟨baseLine_not_mem_front table, baseLine_not_mem_behind table⟩
  case rows =>
    rw [uses, List.map_map, ← map_name_rows signals device]
    rfl
  case arrays =>
    rw [uses, List.forall_mem_map]
    intro row isRow
    refine ⟨arrayOf row, ?_, rfl, ?_, ?_⟩
    · rw [arrays_sourceFront worded]
      exact List.mem_map_of_mem isRow
    · have symbols : (table.rows.map arrayOf).map SourceRecord.symbol =
          table.rows.map fun row => row.pin.settingsArray := List.map_map ..
      rw [arrays, symbols]
      exact List.count_eq_one_of_mem (nodup_settingsArray distinct)
        (List.mem_map.2 ⟨row, isRow, rfl⟩)
    · refine (Settings.interrupt_mem_entries_iff row.settings).trans ?_
      exact ⟨fun enabled => ⟨_, (interruptPointer_eq_iff row _).2 ⟨enabled, rfl⟩⟩,
        fun ⟨symbol, same⟩ => ((interruptPointer_eq_iff row symbol).1 same).1⟩
  case noInterrupts =>
    rw [uses, List.forall_mem_map]
    intro row isRow unused
    refine if_neg fun enabled => ?_
    exact unused _ ((interruptPointer_eq_iff row _).2 ⟨enabled, rfl⟩)
  case interrupts =>
    intro symbol
    rw [uses, ← mem_interruptsOf, ← interrupts]
    exact interruptPart_mem_iff symbol lines
  case interruptsOnce =>
    intro symbol member
    have isInterrupt : symbol ∈ interruptsOf table.rows := by
      rw [← interrupts]
      exact (interruptPart_mem_iff symbol lines).1 member
    constructor
    · rw [interruptPart_mem_iff, interrupts_sourceFront]
      exact isInterrupt
    · rw [count_interruptPart, interrupts]
      exact List.count_eq_one_of_mem (nodup_interruptsOf distinct) isInterrupt
  case sections =>
    refine ⟨_, sectionComment (table.title ++ " IO configuration structure"), ?_,
      isArraysSection_each named, fun kind => ?_⟩
    · rw [sourceFront, definitions_eq, List.flatMap_def]
    · have titles := titles_sourceBehind table
      exact titles ▸ arraysTitle_not_mem table kind

end Device

/-- Whatever was written before, a device adds the same block, and in the block the definitions
stand in front of the table that uses them. -/
theorem definitions_of_device (signals : SignalIndex) (device : Device)
    (named : DeviceNamed signals device)
    (distinct : (device.groups.flatMap fun group => group.pins.map Pin.name).Nodup) :
    ∃ block, (∀ draft : Draft, (Draft.add signals draft device).written.sourceText =
        draft.written.sourceText ++ block) ∧
      ∃ before after, linesIn block = before ++ baseLine device.base :: after ∧
        DefinesFirst device before after := by
  refine ⟨(deviceBlock signals device).sourceText, ?_, _, _,
    linesIn_deviceSource (tableWorded named), definesFirst distinct named⟩
  intro draft
  exact Block.sourceText_append draft.written (deviceBlock signals device)

/-- A device with an input that interrupts and one that does not, a group without pins, and a timer
that interrupts without being told to. -/
def deviceOfInterrupts : Device :=
  let pin (name : String) (attributes : List Attribute) : Pin :=
    ⟨name, 0, 0, none, none, none, attributes, .root "io.json"⟩
  ⟨"board", "pins", [
    ⟨.inputs, [pin "door" [⟨"interrupt", .string "1"⟩], pin "key" []], .root "io.json"⟩,
    ⟨.outputs, [], .root "io.json"⟩,
    ⟨.timers, [pin "tick" []], .root "io.json"⟩], .root "io.json"⟩

theorem definitions_of_deviceOfInterrupts :
    DeviceNamed .empty deviceOfInterrupts ∧
    (deviceOfInterrupts.groups.flatMap fun group => group.pins.map Pin.name).Nodup ∧
    ∃ block, (∀ draft : Draft, (Draft.add .empty draft deviceOfInterrupts).written.sourceText =
        draft.written.sourceText ++ block) ∧
      ∃ before after, linesIn block = before ++ baseLine deviceOfInterrupts.base :: after ∧
        DefinesFirst deviceOfInterrupts before after := by
  have pins : ∀ group ∈ deviceOfInterrupts.groups, ∀ pin ∈ group.pins, PinNamed .empty pin := by
    decide +kernel
  have named : DeviceNamed .empty deviceOfInterrupts := ⟨by decide, by decide, pins⟩
  have distinct : (deviceOfInterrupts.groups.flatMap fun group =>
      group.pins.map Pin.name).Nodup := by
    decide
  exact ⟨named, distinct, definitions_of_device .empty deviceOfInterrupts named distinct⟩

end PinTable.Listing
