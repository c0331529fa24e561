import PinTable.Proofs.Listing.ArrayText
import PinTable.Proofs.Listing.SourceText

set_option autoImplicit false

namespace PinTable

/-- What the table of a device says of a pin. -/
structure PinData where
  name : String
  bank : Int
  addr : Int
  settings : Settings
  deriving DecidableEq, Repr

def Pin.data (kind : PinKind) (pin : Pin) : PinData :=
  ⟨pin.name, pin.bank, pin.addr, Settings.ofPin kind pin⟩

/-- The kinds of a device's groups, each with the data of its pins, in the order of declaration. -/
def Device.data (device : Device) : List (PinKind × List PinData) :=
  device.groups.map fun group => (group.kind, group.pins.map (Pin.data group.kind))

def Row.data (row : Row) : PinData := ⟨row.pin.name, row.bank, row.addr, row.settings⟩

def GroupTable.data (group : GroupTable) : PinKind × List PinData :=
  (group.kind, group.rows.map Row.data)

theorem DeviceTable.data_ofDevice (signals : SignalIndex) (device : Device) :
    (ofDevice signals device).groups.map GroupTable.data = device.data :=
  map_groupsOf signals device.base Row.data Pin.data (fun _ _ _ => rfl) device.groups _

namespace Settings

/-- The entries of an array tell its settings. -/
theorem entries_inj {one other : Settings} (same : one.entries = other.entries) : one = other := by
  have pairs : ∀ first second : List Setting,
      first.flatMap (fun setting => [setting.1.symbol, intText setting.2]) =
        second.flatMap (fun setting => [setting.1.symbol, intText setting.2]) → first = second := by
    intro first
    induction first with
    | nil =>
        intro second texts
        cases second with
        | nil => rfl
        | cons setting rest => cases texts
    | cons setting rest ih =>
        intro second texts
        cases second with
        | nil => cases texts
        | cons other others =>
            obtain ⟨symbols, behind⟩ := List.cons.inj texts
            obtain ⟨values, later⟩ := List.cons.inj behind
            have head : setting = other :=
              Prod.ext (Parameter.symbol_inj symbols) (intText_inj values)
            rw [head, ih others later]
  obtain ⟨first⟩ := one
  obtain ⟨second⟩ := other
  exact congrArg Settings.mk (pairs first second (List.append_cancel_left same))

end Settings

namespace Listing

open Reading

/-- The line of a row and its array tell the data of its pin. -/
theorem data_of_readingOf {one other : Row} (line : readingOf one = readingOf other)
    (array : arrayOf one = arrayOf other) : one.data = other.data := by
  obtain ⟨name, entries⟩ := TableRow.mk.inj line
  obtain ⟨_, settings⟩ := SourceRecord.mk.inj array
  obtain ⟨_, bank, addr, _⟩ : one.pin.kind.typeSymbol = other.pin.kind.typeSymbol ∧
      intText one.bank = intText other.bank ∧ intText one.addr = intText other.addr ∧ True := by
    simp only [List.cons.injEq] at entries
    exact ⟨entries.1, entries.2.1, entries.2.2.1, trivial⟩
  rw [Row.data, Row.data, name, intText_inj bank, intText_inj addr, Settings.entries_inj settings]

theorem data_of_rows (rows others : List Row) (lines : rows.map readingOf = others.map readingOf)
    (arrays : rows.map arrayOf = others.map arrayOf) : rows.map Row.data = others.map Row.data := by
  induction rows generalizing others with
  | nil =>
      rw [List.map_nil, eq_comm, List.map_eq_nil_iff] at lines
      rw [lines]
  | cons row rest ih =>
      cases others with
      | nil => cases lines
      | cons other more =>
          obtain ⟨line, laterLines⟩ := List.cons.inj lines
          obtain ⟨array, laterArrays⟩ := List.cons.inj arrays
          rw [List.map_cons, List.map_cons, data_of_readingOf line array,
            ih more laterLines laterArrays]

/-- Tables that are read alike have the same data. The arrays stand one after the other over all
groups, and the rows that are read tell where those of a group end. -/
theorem data_of_groups (groups others : List GroupTable)
    (tables : groups.map groupReading = others.map groupReading)
    (arrays : (groups.flatMap GroupTable.rows).map arrayOf =
      (others.flatMap GroupTable.rows).map arrayOf) :
    groups.map GroupTable.data = others.map GroupTable.data := by
  induction groups generalizing others with
  | nil =>
      rw [List.map_nil, eq_comm, List.map_eq_nil_iff] at tables
      rw [tables]
  | cons group rest ih =>
      cases others with
      | nil => cases tables
      | cons other more =>
          obtain ⟨first, later⟩ := List.cons.inj tables
          obtain ⟨heading, lines⟩ := Prod.mk.inj first
          have kind : group.kind = other.kind :=
            PinKind.name_inj (congrArg TableHeading.name heading)
          have lengths := congrArg List.length lines
          simp only [List.flatMap_cons, List.map_append] at arrays
          obtain ⟨here, behind⟩ := List.append_inj arrays (by simpa using lengths)
          rw [List.map_cons, List.map_cons, GroupTable.data, GroupTable.data, kind,
            data_of_rows _ _ lines here, ih more later behind]

section Device

variable {signals : SignalIndex} {device : Device}

theorem arraysIn_deviceSource (named : DeviceNamed signals device) :
    arraysIn (textOf (deviceSource (DeviceTable.ofDevice signals device))) =
      (DeviceTable.ofDevice signals device).rows.map arrayOf := by
  have worded := tableWorded named
  have last : [""].filterMap array? = [] := rfl
  rw [arraysIn, linesIn_textOf _ (deviceSource_unbroken worded), List.filterMap_append, last,
    List.append_nil, arrays_deviceSource]
  intro row member
  obtain ⟨group, isGroup, isRow⟩ := List.mem_flatMap.1 member
  exact ⟨(worded.rows group isGroup row isRow).base, (worded.rows group isGroup row isRow).name⟩

/-- The first object that a device defines is its structure. -/
theorem head?_definitionsIn (named : DeviceNamed signals device) :
    (definitionsIn (textOf (deviceSource (DeviceTable.ofDevice signals device)))).head? =
      some (Category.pins.declaration device.base) := by
  have worded := tableWorded named
  have defined := definitions_deviceSource worded (ne_equals_of_isIdentifier _ named.base)
  rw [definitionsIn, linesIn_textOf _ (deviceSource_unbroken worded), List.filterMap_append,
    defined]
  rfl

end Device

/-- Devices that add the same text to the source have the same base name, kinds of groups and data
of pins, whatever was written before. -/
theorem pin_data_in_source (signals : SignalIndex) (one other : Device)
    (named : DeviceNamed signals one) (alsoNamed : DeviceNamed signals other)
    (draft after : Draft) (added : String)
    (first : (Draft.add signals draft one).written.sourceText = draft.written.sourceText ++ added)
    (second : (Draft.add signals after other).written.sourceText =
      after.written.sourceText ++ added) :
    one.base = other.base ∧ one.data = other.data := by
  have text : ∀ (draft : Draft) (device : Device),
      (Draft.add signals draft device).written.sourceText = draft.written.sourceText ++ added →
        textOf (deviceSource (DeviceTable.ofDevice signals device)) = added := by
    intro draft device isAdded
    have block := Block.sourceText_append draft.written (deviceBlock signals device)
    exact (String.append_right_inj _).1 (block.symm.trans isAdded)
  have same := (text draft one first).trans (text after other second).symm
  constructor
  · have objects := congrArg (fun text => (definitionsIn text).head?) same
    simp only [head?_definitionsIn named, head?_definitionsIn alsoNamed, Option.some_inj] at objects
    have symbols := congrArg Category.pins.symbol? objects
    rwa [Category.symbol?_declaration, Category.symbol?_declaration, if_pos rfl, if_pos rfl,
      Option.some_inj] at symbols
  · have tables := congrArg tableIn same
    have arrays := congrArg arraysIn same
    rw [tableIn_deviceSource (tableWorded named),
      tableIn_deviceSource (tableWorded alsoNamed)] at tables
    rw [arraysIn_deviceSource named, arraysIn_deviceSource alsoNamed] at arrays
    rw [← DeviceTable.data_ofDevice signals one, ← DeviceTable.data_ofDevice signals other]
    exact data_of_groups _ _ tables arrays

/-- A device with a chip in a bank below zero, and a timer with some attributes. -/
def deviceOfTimer (document : String) (attributes : List Attribute) : Device :=
  ⟨"board", "pins", [
    ⟨.spi, [⟨"adc", -1, 7, some "panel", some "mcp3208", none,
      [⟨"sclk", .string "18"⟩, ⟨"speed", .string "-250"⟩], .root document⟩], .root document⟩,
    ⟨.timers, [⟨"tick", 0, 0, none, none, none, attributes, .root document⟩], .root document⟩],
    .root document⟩

/-- The source shows neither the document nor whether the timer says that it interrupts. -/
theorem pin_data_in_source_deviceOfTimer :
    let one := deviceOfTimer "io.json" []
    let other := deviceOfTimer "timers.json" [⟨"interrupt", .string "1"⟩]
    let draft := Draft.begun "PINS_H_"
    DeviceNamed .empty one ∧ DeviceNamed .empty other ∧ ∃ added,
      (Draft.add .empty draft one).written.sourceText = draft.written.sourceText ++ added ∧
      (Draft.add .empty draft other).written.sourceText = draft.written.sourceText ++ added ∧
      one.base = other.base ∧ one.data = other.data := by
  intro one other draft
  have pins : ∀ device ∈ [one, other], ∀ group ∈ device.groups, ∀ pin ∈ group.pins,
      PinNamed .empty pin := by
    decide +kernel
  obtain ⟨here, there⟩ := List.forall_mem_cons.1 pins
  have named : DeviceNamed .empty one := ⟨by decide, by decide, here⟩
  have alsoNamed : DeviceNamed .empty other :=
    ⟨by decide, by decide, there other (List.mem_singleton_self _)⟩
  have tables : DeviceTable.ofDevice .empty other = DeviceTable.ofDevice .empty one := rfl
  have first := Block.sourceText_append draft.written (deviceBlock .empty one)
  have second := Block.sourceText_append draft.written (deviceBlock .empty other)
  have same : (deviceBlock .empty other).sourceText = (deviceBlock .empty one).sourceText :=
    congrArg (fun table => textOf (deviceSource table)) tables
  rw [same] at second
  exact ⟨named, alsoNamed, _, first, second,
    pin_data_in_source .empty one other named alsoNamed draft draft _ first second⟩

end Listing

end PinTable
