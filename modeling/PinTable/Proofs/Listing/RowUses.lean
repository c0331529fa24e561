import PinTable.Proofs.Listing.ArraySymbols
import PinTable.Proofs.Listing.PinData
import PinTable.Proofs.Listing.Titles
import PinTable.Proofs.Settings

set_option autoImplicit false

namespace PinTable

open Reading

namespace Reading

/-- The word in front of the last brace of a text. -/
def lastField (text : String) : String :=
  String.ofList (((text.toList.reverse.dropWhile (· != '\x7d')).tail).takeWhile (· != ' ')).reverse

theorem lastField_append (front field : String) (word : Word field) (last : Bool) :
    lastField (front ++ (" " ++ (field ++ ("\x7d" ++ Listing.commaUnless last)))) = field := by
  have backward :
      (front ++ (" " ++ (field ++ ("\x7d" ++ Listing.commaUnless last)))).toList.reverse =
        (Listing.commaUnless last).toList.reverse ++
          '\x7d' :: (field.toList.reverse ++ ' ' :: front.toList.reverse) := by
    simp [String.toList_append]
  have free : '\x7d' ∉ (Listing.commaUnless last).toList.reverse := by
    cases last <;> decide
  have inside : ' ' ∉ field.toList.reverse := by
    rw [List.mem_reverse]
    exact word.not_mem ' ' rfl
  rw [lastField, backward, dropWhile_ne_append '\x7d' _ _ free, List.tail_cons,
    takeWhile_ne_append ' ' _ _ inside, List.reverse_reverse, String.ofList_toList]

/-- The name of a row, and what it uses: an array of settings, and the configuration of an
interrupt. -/
structure RowUse where
  name : String
  array : String
  interrupt : String
  deriving DecidableEq, Repr

def rowUse? (line : String) : Option RowUse := do
  let row ← row? line
  let array ← row.entries[3]?
  let front ← beforeComment? line
  return ⟨row.name, array, lastField front⟩

/-- What the rows among lines use, in order. -/
def usesAmong (lines : List String) : List RowUse := lines.filterMap rowUse?

theorem rowUse?_eq_none (line : String) (other : row? line = none) : rowUse? line = none := by
  rw [rowUse?, other]
  rfl

theorem usesAmong_append (front behind : List String) :
    usesAmong (front ++ behind) = usesAmong front ++ usesAmong behind :=
  List.filterMap_append ..

/-- Lines that say nothing of the table are no rows. -/
theorem usesAmong_eq_nil (lines : List String) (other : lines.filterMap part? = []) :
    usesAmong lines = [] := by
  rw [usesAmong, List.filterMap_eq_nil_iff]
  intro line member
  have noPart := List.filterMap_eq_nil_iff.1 other line member
  rw [part?, Option.or_eq_none_iff, Option.map_eq_none_iff, Option.map_eq_none_iff] at noPart
  exact rowUse?_eq_none line noPart.2

end Reading

/-- The array of settings tells whether the pin interrupts. -/
theorem Settings.interrupt_mem_entries_iff (settings : Settings) :
    Parameter.interrupt.symbol ∈ settings.entries ↔ settings.interrupts = true := by
  have reserved : Parameter.interrupt.symbol ∉ [reservedEntry, reservedEntry] := by decide
  have number : ∀ value, Parameter.interrupt.symbol ≠ intText value := by
    intro value same
    have read := readInt?_intText value
    rw [← same] at read
    cases read
  rw [interrupts_iff, entries, List.mem_append, List.mem_flatMap, List.mem_map,
    or_iff_right reserved]
  refine exists_congr fun setting => and_congr_right fun _ => ?_
  rw [List.mem_cons, List.mem_singleton, or_iff_left (number setting.2)]
  exact ⟨fun same => (Parameter.symbol_inj same).symm, fun same => by rw [same]⟩

namespace Listing

/-- The use of the configuration of an interrupt in a row. -/
def interruptUse (symbol : String) : String := "PINS_INTCONF_PTR(" ++ symbol ++ ")"

/-- What stands in a row without an interrupt. -/
def noInterruptUse : String := "PINS_INTCONF_NULL"

/-- The line that configures an interrupt. -/
def interruptPart (symbol : String) : String := "PINS_INTCONF_STRUCT(" ++ symbol ++ ")"

/-- The symbol of the interrupt that a line configures. -/
def interrupt? (line : String) : Option String := enclosed? "PINS_INTCONF_STRUCT(" ")" line

theorem noInterruptUse_ne (symbol : String) : noInterruptUse ≠ interruptUse symbol := by
  unfold interruptUse
  exact ne_append_of_last _ _ _ ')' rfl (by decide)

theorem interruptUse_inj {symbol other : String} (same : interruptUse symbol = interruptUse other) :
    symbol = other := by
  unfold interruptUse at same
  exact (String.append_right_inj _).1 ((String.append_left_inj _).1 same)

theorem interrupt?_eq_some_iff (line symbol : String) :
    interrupt? line = some symbol ↔ line = interruptPart symbol :=
  enclosed?_eq_some_iff _ _ line symbol

/-- The interrupts that lines configure, in order. -/
def interruptsAmong (lines : List String) : List String := lines.filterMap interrupt?

theorem count_interruptPart (symbol : String) (lines : List String) :
    lines.count (interruptPart symbol) = (interruptsAmong lines).count symbol := by
  rw [interruptsAmong, List.count_filterMap, List.count]
  refine List.countP_congr fun line _ => ?_
  rw [beq_iff_eq, beq_iff_eq]
  exact (interrupt?_eq_some_iff line symbol).symm

theorem interruptPart_mem_iff (symbol : String) (lines : List String) :
    interruptPart symbol ∈ lines ↔ symbol ∈ interruptsAmong lines := by
  rw [← List.count_pos_iff, ← List.count_pos_iff, count_interruptPart]

def useOf (row : Row) : RowUse := ⟨row.pin.name, row.pin.settingsArray, interruptPointer row⟩

theorem interruptPointer_eq (row : Row) : interruptPointer row =
    if row.settings.interrupts then interruptUse row.pin.interruptSymbol else noInterruptUse := rfl

theorem interruptPointer_eq_iff (row : Row) (symbol : String) :
    interruptPointer row = interruptUse symbol ↔
      row.settings.interrupts = true ∧ row.pin.interruptSymbol = symbol := by
  rw [interruptPointer_eq]
  split
  · next enabled =>
      exact ⟨fun same => ⟨enabled, interruptUse_inj same⟩, fun both => congrArg _ both.2⟩
  · next disabled =>
      exact iff_of_false (noInterruptUse_ne symbol) fun both => disabled both.1

theorem word_interruptPointer {row : Row} (worded : RowWorded row) :
    Word (interruptPointer row) := by
  unfold interruptPointer QualifiedPin.interruptSymbol
  split
  · simp only [word_append]
    exact ⟨⟨by decide, ⟨⟨worded.base, by decide⟩, worded.name⟩, by decide⟩, by decide⟩
  · decide

theorem rowUse?_rowLine {row : Row} (worded : RowWorded row) (last : Bool) :
    rowUse? (rowLine last row) = some (useOf row) := by
  have found : row? (rowLine last row) = some (readingOf row) := by
    rw [rowLine_eq]
    exact row?_line _ rfl worded.entries _ _ worded.name
  have front : beforeComment? (rowLine last row) =
      some (rowStart ++ (commaList (readingOf row).entries ++ (", " ++ rowEnding last row))) := by
    have before := beforeComment?_append
      (rowStart ++ (commaList (readingOf row).entries ++ (", " ++ rowEnding last row)))
      row.pin.name worded.name
    simp only [String.append_assoc] at before
    rw [rowLine_eq]
    exact before
  have field : lastField (rowStart ++ (commaList (readingOf row).entries ++
      (", " ++ rowEnding last row))) = interruptPointer row := by
    have behind := lastField_append (rowStart ++ (commaList (readingOf row).entries ++ (", " ++
      (row.signal.getD nullReference ++ " " ++ devicePointer row)))) _
      (word_interruptPointer worded) last
    simp only [String.append_assoc] at behind
    rw [rowEnding]
    simp only [String.append_assoc]
    exact behind
  have array : (readingOf row).entries[3]? = some row.pin.settingsArray := rfl
  simp only [rowUse?, found, front, array, field, Option.bind_eq_bind, Option.bind_some]
  rfl

theorem uses_groupLines {group : GroupTable} (worded : ∀ row ∈ group.rows, RowWorded row)
    (last : Bool) : usesAmong (groupLines last group) = group.rows.map useOf := by
  have heading : rowUse? (headingLine group) = none := by
    apply rowUse?_eq_none
    rw [row?, headingLine, after?_append_eq_none rowStart _ _ (by decide) (by decide)]
    rfl
  have rows : usesAmong (mapLast rowLine group.rows) = group.rows.map useOf := by
    apply filterMap_of_map
    rw [map_mapLast rowLine rowUse? (fun row => some (useOf row)) group.rows
      fun last row member => rowUse?_rowLine (worded row member) last, List.map_map]
    rfl
  have closing : rowUse? ("  \x7d" ++ commaUnless last) = none := by
    apply rowUse?_eq_none
    rw [row?, after?_append_eq_none rowStart _ _ (by decide) (by decide)]
    rfl
  rw [groupLines_eq, usesAmong_append, usesAmong_append, rows, usesAmong, usesAmong,
    List.filterMap_cons_none heading, List.filterMap_cons_none closing, List.filterMap_nil,
    List.nil_append, List.append_nil]

/-- The lines of a block in front of the line that begins the table. -/
def sourceFront (table : DeviceTable) : List String :=
  table.groups.flatMap groupDefinitions ++
    sectionComment (table.title ++ " IO configuration structure")

/-- The lines of a block behind the line that begins the table. -/
def sourceBehind (table : DeviceTable) : List String :=
  aggregate (mapLast groupLines table.groups) "\x7d;" ++ (groupListLines table ++
    (topLines table ++ (headsSection table (headDefinition table.base) ++ [""])))

variable {table : DeviceTable}

theorem linesIn_deviceSource (worded : TableWorded table) :
    linesIn (textOf (deviceSource table)) =
      sourceFront table ++ baseLine table.base :: sourceBehind table := by
  rw [linesIn_textOf _ (deviceSource_unbroken worded), deviceSource, tableLines_eq]
  simp only [List.append_assoc, sourceFront, sourceBehind]
  rfl

theorem sourceFront_start (table : DeviceTable) (c : Char) (other : c ∉ ['/', 's', 'P']) :
    ∀ line ∈ sourceFront table, line.toList.head? ≠ some c := by
  have slash : c ≠ '/' := fun same => other (same ▸ List.mem_cons_self)
  rw [sourceFront]
  simp only [List.forall_mem_append]
  exact ⟨definitions_start table c other, sectionComment_start _ c slash⟩

theorem baseLine_not_mem_front (table : DeviceTable) : baseLine table.base ∉ sourceFront table :=
  fun member => sourceFront_start table 'O' (by decide) _ member (baseLine_start table.base)

theorem baseLine_end (base : String) : (baseLine base).toList.getLast? = some '=' := by
  unfold baseLine
  rw [String.toList_append, List.getLast?_append]
  rfl

/-- Behind its beginning, a table does not begin again. -/
theorem baseLine_not_mem_behind (table : DeviceTable) :
    baseLine table.base ∉ sourceBehind table := by
  have start := baseLine_start table.base
  have ends : ∀ front, baseLine table.base ≠ front ++ ";" := fun front =>
    ne_append_of_last _ _ _ ';' rfl (by rw [baseLine_end]; decide)
  have comment : ∀ title, baseLine table.base ∉ sectionComment title :=
    fun title member => sectionComment_start title 'O' (by decide) _ member start
  simp only [sourceBehind, List.mem_append, not_or]
  refine ⟨fun member => initializer_start table 'O' (by decide) _ member start,
    fun member => groupListLines_start table 'O' (by decide) _ member start, ?_, ?_, ?_⟩
  · rw [topLines_eq, List.mem_append, not_or, List.mem_singleton]
    exact ⟨comment _, ends _⟩
  · intro member
    unfold headsSection at member
    split at member
    · cases member
    · rcases List.mem_append.1 member with isComment | isHead
      · exact comment _ isComment
      · obtain ⟨head, _, same⟩ := List.mem_map.1 isHead
        exact ends _ same.symm
  · rintro member
    rw [List.mem_singleton.1 member] at start
    cases start

theorem uses_sourceBehind (worded : TableWorded table) :
    usesAmong (sourceBehind table) = table.rows.map useOf := by
  have initializer : usesAmong (aggregate (mapLast groupLines table.groups) "\x7d;") =
      table.rows.map useOf := by
    rw [usesAmong, filterMap_aggregate rowUse? _ _ rfl rfl rfl rfl, List.flatMap_def,
      map_mapLast groupLines (List.filterMap rowUse?) (fun group => group.rows.map useOf) _
        fun last group member => uses_groupLines (worded.rows group member) last,
      ← List.flatMap_def, DeviceTable.rows, List.map_flatMap]
  rw [sourceBehind]
  simp only [usesAmong_append]
  rw [initializer, usesAmong_eq_nil _ (filterMap_part?_groupListLines table),
    usesAmong_eq_nil _ (filterMap_part?_eq_nil _ (topLines_start table ' ' (by decide))),
    usesAmong_eq_nil _ (filterMap_part?_eq_nil _ (headsSection_start table ' ' (by decide))),
    usesAmong_eq_nil [""] (by decide)]
  simp only [List.append_nil]

theorem arraysAmong_append (front behind : List String) :
    arraysAmong (front ++ behind) = arraysAmong front ++ arraysAmong behind :=
  List.filterMap_append ..

theorem arrays_sourceFront (worded : TableWorded table) :
    arraysAmong (sourceFront table) = table.rows.map arrayOf := by
  have groups : ∀ group ∈ table.groups,
      (groupDefinitions group).filterMap array? = group.rows.map arrayOf := by
    intro group isGroup
    apply arrays_groupDefinitions
    exact fun row isRow => ⟨(worded.rows group isGroup row isRow).base,
      (worded.rows group isGroup row isRow).name⟩
  have comment := filterMap_array?_eq_nil _
    (sectionComment_start (table.title ++ " IO configuration structure") 's' (by decide))
  rw [sourceFront, arraysAmong, List.filterMap_append, comment, List.append_nil,
    List.filterMap_flatMap, List.flatMap_congr groups, DeviceTable.rows, List.map_flatMap]

theorem arrays_sourceBehind (table : DeviceTable) :
    arraysAmong (baseLine table.base :: sourceBehind table) = [] := by
  have base : arraysAmong [baseLine table.base] = [] := by
    apply filterMap_array?_eq_nil
    rw [List.forall_mem_singleton, baseLine_start]
    decide
  rw [← List.singleton_append, sourceBehind]
  simp only [arraysAmong_append]
  rw [base, arraysAmong, arraysAmong, arraysAmong, arraysAmong, arraysAmong,
    filterMap_array?_eq_nil _ (initializer_start table 's' (by decide)),
    array?_groupListLines, filterMap_array?_eq_nil _ (topLines_start table 's' (by decide)),
    filterMap_array?_eq_nil _ (headsSection_start table 's' (by decide)),
    filterMap_array?_eq_nil [""] (by decide)]
  rfl

theorem interruptsAmong_append (front behind : List String) :
    interruptsAmong (front ++ behind) = interruptsAmong front ++ interruptsAmong behind :=
  List.filterMap_append ..

theorem interruptsAmong_eq_nil (lines : List String)
    (other : ∀ line ∈ lines, line.toList.head? ≠ some 'P') : interruptsAmong lines = [] :=
  List.filterMap_eq_nil_iff.2 fun line member =>
    enclosed?_eq_none _ _ line 'P' rfl (other line member)

def interruptsOf (rows : List Row) : List String :=
  (rows.filter fun row => row.settings.interrupts).map fun row => row.pin.interruptSymbol

theorem interrupts_rowDefinitions (row : Row) :
    interruptsAmong (rowDefinitions row) = interruptsOf [row] := by
  have array : interrupt? (arrayLine row) = none := by
    apply enclosed?_eq_none _ _ _ 'P' rfl
    unfold arrayLine
    simp only [String.append_assoc]
    rw [head?_append_of_head? _ _ 's' rfl]
    decide
  have interrupt : interrupt? (interruptLine row) = some row.pin.interruptSymbol :=
    (interrupt?_eq_some_iff _ _).2 rfl
  unfold rowDefinitions interruptsOf
  split
  · next enabled =>
      rw [interruptsAmong, List.filterMap_cons_none array, List.filterMap_cons_some interrupt,
        List.filter_singleton, enabled]
      rfl
  · next disabled =>
      rw [interruptsAmong, List.filterMap_cons_none array, List.filter_singleton,
        Bool.eq_false_iff.2 disabled]
      rfl
/-- What is configured part by part is configured in the whole. -/
theorem interruptsAmong_flatMap {α : Type} (items : List α) {lines : α → List String}
    {rows : α → List Row} (each : ∀ item, interruptsAmong (lines item) = interruptsOf (rows item)) :
    interruptsAmong (items.flatMap lines) = interruptsOf (items.flatMap rows) := by
  rw [interruptsOf, List.filter_flatMap, List.map_flatMap, interruptsAmong, List.filterMap_flatMap]
  exact List.flatMap_congr fun item _ => each item

theorem interrupts_groupDefinitions (group : GroupTable) :
    interruptsAmong (groupDefinitions group) = interruptsOf group.rows := by
  have rows := interruptsAmong_flatMap group.rows interrupts_rowDefinitions
  rw [List.flatMap_singleton'] at rows
  unfold groupDefinitions
  split
  · next none =>
      rw [List.isEmpty_iff.1 none]
      rfl
  · rw [interruptsAmong_append, rows,
      interruptsAmong_eq_nil _ (sectionComment_start _ 'P' (by decide)), List.nil_append]

theorem interrupts_sourceFront (table : DeviceTable) :
    interruptsAmong (sourceFront table) = interruptsOf table.rows := by
  rw [sourceFront, interruptsAmong_append, DeviceTable.rows,
    interruptsAmong_flatMap table.groups interrupts_groupDefinitions,
    interruptsAmong_eq_nil _ (sectionComment_start _ 'P' (by decide)), List.append_nil]

theorem interrupts_sourceBehind (table : DeviceTable) :
    interruptsAmong (baseLine table.base :: sourceBehind table) = [] := by
  apply interruptsAmong_eq_nil
  simp only [List.forall_mem_cons, sourceBehind, List.forall_mem_append]
  refine ⟨?_, initializer_start table 'P' (by decide), groupListLines_start table 'P' (by decide),
    topLines_start table 'P' (by decide), headsSection_start table 'P' (by decide), by decide⟩
  rw [baseLine_start]
  decide

end Listing

end PinTable
