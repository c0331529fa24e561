import PinTable.Listing.Draft
import PinTable.Proofs.Chain.Keyed
import PinTable.Proofs.Listing.Lines
import PinTable.Proofs.Reading.Table

set_option autoImplicit false

namespace PinTable.Listing

open Reading

def headingOf (group : GroupTable) : TableHeading :=
  ⟨group.kind.name, [natText group.rows.length,
    QualifiedPin.reference (group.rows.head?.map Row.pin)]⟩

def readingOf (row : Row) : TableRow :=
  ⟨row.pin.name, [row.pin.kind.typeSymbol, intText row.bank, intText row.addr,
    row.pin.settingsArray, "sizeof(" ++ row.pin.settingsArray ++ ")/sizeof(os_ushort)",
    QualifiedPin.reference row.next]⟩

def groupReading (group : GroupTable) : TableHeading × List TableRow :=
  (headingOf group, group.rows.map readingOf)

/-- The names in a row are words, and what it quotes is of one line. -/
structure RowWorded (row : Row) : Prop where
  base : Word row.pin.base
  name : Word row.pin.name
  next : ∀ pin ∈ row.next, Word pin.member
  signal : ∀ reference ∈ row.signal, Unbroken reference
  device : ∀ symbol ∈ row.device, Unbroken symbol

def rowEnding (last : Bool) (row : Row) : String :=
  row.signal.getD nullReference ++ " " ++ devicePointer row ++ " " ++ interruptPointer row ++
    "\x7d" ++ commaUnless last

theorem rowLine_eq (last : Bool) (row : Row) :
    rowLine last row = rowStart ++ (commaList (readingOf row).entries ++ (", " ++
      (rowEnding last row ++ (" /* " ++ (row.pin.name ++ " */"))))) := by
  have start : rowStart = "    " ++ "\x7b" := rfl
  have size : ", sizeof(" = ", " ++ "sizeof(" := rfl
  have element : ")/sizeof(os_ushort), " = ")/sizeof(os_ushort)" ++ ", " := rfl
  unfold rowLine rowEnding readingOf braced
  simp only [commaList_cons, start, size, element, String.append_assoc]
  rfl

theorem word_settingsArray (pin : QualifiedPin) (base : Word pin.base) (name : Word pin.name) :
    Word pin.settingsArray := by
  simp only [QualifiedPin.settingsArray, QualifiedPin.joined, word_append]
  exact ⟨⟨⟨⟨⟨base, by decide⟩, word_kindName _⟩, by decide⟩, name⟩, by decide⟩

theorem word_reference (pin : Option QualifiedPin) (word : ∀ known ∈ pin, Word known.member) :
    Word (QualifiedPin.reference pin) := by
  apply word_referenceTo
  intro name found
  obtain ⟨known, isKnown, rfl⟩ := Option.map_eq_some_iff.1 found
  exact word known isKnown

theorem RowWorded.entries {row : Row} (worded : RowWorded row) :
    ∀ entry ∈ (readingOf row).entries, Word entry := by
  have array := word_settingsArray row.pin worded.base worded.name
  have size : Word ("sizeof(" ++ row.pin.settingsArray ++ ")/sizeof(os_ushort)") := by
    rw [word_append, word_append]
    exact ⟨⟨by decide, array⟩, by decide⟩
  simp only [readingOf, List.forall_mem_cons, List.not_mem_nil, false_implies, implies_true,
    and_true]
  exact ⟨word_typeSymbol _, word_intText _, word_intText _, array, size,
    word_reference _ worded.next⟩

theorem RowWorded.unbroken_ending {row : Row} (worded : RowWorded row) (last : Bool) :
    Unbroken (rowEnding last row) := by
  have signal : Unbroken (row.signal.getD nullReference) := by
    cases found : row.signal with
    | none => exact (by decide : Unbroken nullReference)
    | some reference => exact worded.signal reference found
  have device : Unbroken (devicePointer row) := by
    unfold devicePointer
    split
    · next symbol found =>
        simp only [unbroken_append]
        exact ⟨⟨by decide, worded.device symbol found⟩, by decide⟩
    · decide
  have interrupt : Unbroken (interruptPointer row) := by
    unfold interruptPointer QualifiedPin.interruptSymbol
    split
    · simp only [unbroken_append]
      exact ⟨⟨by decide, ⟨⟨worded.base.unbroken, by decide⟩, worded.name.unbroken⟩, by decide⟩,
        by decide⟩
    · decide
  have comma : Unbroken (commaUnless last) := by
    cases last <;> decide
  unfold rowEnding
  simp only [unbroken_append]
  exact ⟨⟨⟨⟨⟨⟨signal, by decide⟩, device⟩, by decide⟩, interrupt⟩, by decide⟩, comma⟩

theorem RowWorded.unbroken {row : Row} (worded : RowWorded row) (last : Bool) :
    Unbroken (rowLine last row) := by
  have entries := not_mem_commaList _ worded.entries '\n' rfl (by decide)
  rw [rowLine_eq]
  simp only [unbroken_append]
  exact ⟨by decide, entries, by decide, worded.unbroken_ending last, by decide,
    worded.name.unbroken, by decide⟩

theorem part?_rowLine {row : Row} (worded : RowWorded row) (last : Bool) :
    part? (rowLine last row) = some (.row (readingOf row)) := by
  rw [rowLine_eq]
  exact part?_row _ _ (row?_line _ rfl worded.entries _ _ worded.name)

/-- The names in the table of a device are words, and what it quotes is of one line. -/
structure TableWorded (table : DeviceTable) : Prop where
  title : Unbroken table.title
  base : Word table.base
  rows : ∀ group ∈ table.groups, ∀ row ∈ group.rows, RowWorded row
  tags : ∀ head ∈ table.tags.headPins, Word head.1
  heads : ∀ head ∈ table.tags.headPins, Word head.2.member

def headingLine (group : GroupTable) : String :=
  headingStart ++ (commaList (headingOf group).entries ++ ("\x7d" ++ ("," ++
    (" /* " ++ (group.kind.name ++ " */")))))

theorem groupLines_eq (last : Bool) (group : GroupTable) :
    groupLines last group =
      [headingLine group] ++ mapLast rowLine group.rows ++ ["  \x7d" ++ commaUnless last] := by
  have start : headingStart = "  \x7b" ++ "\x7b" := rfl
  have close : ", /* " = "," ++ " /* " := rfl
  unfold groupLines headingLine headingOf braced
  simp only [commaList_cons, start, close, String.append_assoc]
  rfl

theorem headingOf_entries {group : GroupTable} (worded : ∀ row ∈ group.rows, RowWorded row) :
    ∀ entry ∈ (headingOf group).entries, Word entry := by
  have first : Word (QualifiedPin.reference (group.rows.head?.map Row.pin)) := by
    apply word_reference
    intro pin found
    obtain ⟨row, isFirst, rfl⟩ := Option.map_eq_some_iff.1 found
    have row := worded row (List.mem_of_mem_head? isFirst)
    exact word_member _ row.base row.name
  simp only [headingOf, List.forall_mem_cons, List.not_mem_nil, false_implies, implies_true,
    and_true]
  exact ⟨word_natText _, first⟩

/-- A group that is written is read. -/
theorem filterMap_groupLines {group : GroupTable} (worded : ∀ row ∈ group.rows, RowWorded row)
    (last : Bool) : (groupLines last group).filterMap part? = partsOf (groupReading group) := by
  have heading : part? (headingLine group) = some (.heading (headingOf group)) :=
    part?_heading _ _ (heading?_line _ (List.cons_ne_nil _ _) (headingOf_entries worded) _ _
      (word_kindName _))
  have rows : (mapLast rowLine group.rows).filterMap part? =
      (group.rows.map readingOf).map .row := by
    apply filterMap_of_map
    rw [map_mapLast rowLine part? (fun row => some (.row (readingOf row))) group.rows
      fun last row member => part?_rowLine (worded row member) last, List.map_map, List.map_map]
    rfl
  have closing : part? ("  \x7d" ++ commaUnless last) = none :=
    part?_eq_none _ (after?_append_eq_none _ _ _ (by decide) (by decide))
      (after?_append_eq_none _ _ _ (by decide) (by decide))
  rw [groupLines_eq, List.filterMap_append, List.filterMap_append, rows,
    List.filterMap_cons_some heading, List.filterMap_nil, List.filterMap_cons_none closing,
    List.filterMap_nil, List.append_nil]
  rfl

theorem groupLines_unbroken {group : GroupTable} (worded : ∀ row ∈ group.rows, RowWorded row)
    (last : Bool) : ∀ line ∈ groupLines last group, Unbroken line := by
  have entries := not_mem_commaList _ (headingOf_entries worded) '\n' rfl (by decide)
  have heading : Unbroken (headingLine group) := by
    unfold headingLine
    simp only [unbroken_append]
    exact ⟨by decide, entries, by decide, by decide, by decide, (word_kindName _).unbroken,
      by decide⟩
  have closing : Unbroken ("  \x7d" ++ commaUnless last) := by
    cases last <;> decide
  rw [groupLines_eq]
  simp only [List.forall_mem_append]
  exact ⟨⟨List.forall_mem_singleton.2 heading,
    forall_mem_mapLast _ _ _ fun last row member => (worded row member).unbroken last⟩,
    List.forall_mem_singleton.2 closing⟩

/-- The lines of a group are indented. -/
theorem groupLines_start (last : Bool) (group : GroupTable) :
    ∀ line ∈ groupLines last group, line.toList.head? = some ' ' := by
  rw [groupLines_eq]
  simp only [List.forall_mem_append]
  refine ⟨⟨List.forall_mem_singleton.2 (head?_append_of_head? _ _ ' ' rfl), ?_⟩,
    List.forall_mem_singleton.2 (head?_append_of_head? _ _ ' ' rfl)⟩
  apply forall_mem_mapLast
  intro last row _
  rw [rowLine_eq]
  exact head?_append_of_head? _ _ ' ' rfl

theorem word_entries (settings : Settings) : ∀ entry ∈ settings.entries, Word entry := by
  unfold Settings.entries
  simp only [List.forall_mem_append]
  refine ⟨by decide, ?_⟩
  intro entry member
  obtain ⟨setting, _, isEntry⟩ := List.mem_flatMap.1 member
  rcases List.mem_cons.1 isEntry with rfl | isValue
  · exact word_parameterSymbol _
  · rw [List.mem_singleton.1 isValue]
    exact word_intText _

/-- What holds of each line in the definitions of a group. -/
theorem forall_mem_groupDefinitions (holds : String → Prop) (group : GroupTable)
    (comment : ∀ line ∈ sectionComment ("Parameters for " ++ group.kind.name), holds line)
    (array : ∀ row ∈ group.rows, holds (arrayLine row))
    (interrupt : ∀ row ∈ group.rows, holds (interruptLine row)) :
    ∀ line ∈ groupDefinitions group, holds line := by
  have definitions : ∀ row ∈ group.rows, ∀ line ∈ rowDefinitions row, holds line := by
    intro row member
    unfold rowDefinitions
    split
    · exact List.forall_mem_cons.2
        ⟨array row member, List.forall_mem_singleton.2 (interrupt row member)⟩
    · exact List.forall_mem_singleton.2 (array row member)
  unfold groupDefinitions
  split
  · exact fun _ member => absurd member List.not_mem_nil
  · simp only [List.forall_mem_append]
    refine ⟨comment, ?_⟩
    intro line member
    obtain ⟨row, isRow, isLine⟩ := List.mem_flatMap.1 member
    exact definitions row isRow line isLine

theorem groupDefinitions_unbroken {group : GroupTable}
    (worded : ∀ row ∈ group.rows, RowWorded row) :
    ∀ line ∈ groupDefinitions group, Unbroken line := by
  apply forall_mem_groupDefinitions
  case comment =>
    apply sectionComment_unbroken
    rw [unbroken_append]
    exact ⟨by decide, (word_kindName _).unbroken⟩
  case array =>
    intro row member
    have settings := not_mem_commaList _ (word_entries row.settings) '\n' rfl (by decide)
    have symbol := word_settingsArray row.pin (worded row member).base (worded row member).name
    unfold arrayLine braced
    simp only [unbroken_append]
    exact ⟨⟨⟨⟨by decide, symbol.unbroken⟩, by decide⟩, ⟨by decide, settings⟩, by decide⟩, by decide⟩
  case interrupt =>
    intro row member
    have base := (worded row member).base.unbroken
    have name := (worded row member).name.unbroken
    unfold interruptLine QualifiedPin.interruptSymbol
    simp only [unbroken_append]
    exact ⟨⟨by decide, ⟨⟨base, by decide⟩, name⟩, by decide⟩, by decide⟩

theorem groupDefinitions_start (group : GroupTable) (c : Char) (other : c ∉ ['/', 's', 'P']) :
    ∀ line ∈ groupDefinitions group, line.toList.head? ≠ some c := by
  simp only [List.mem_cons, List.not_mem_nil, or_false, not_or] at other
  apply forall_mem_groupDefinitions
  case comment => exact sectionComment_start _ c other.1
  case array =>
    intro row _
    unfold arrayLine
    simpa [String.toList_append] using Ne.symm other.2.1
  case interrupt =>
    intro row _
    unfold interruptLine
    simpa [String.toList_append] using Ne.symm other.2.2

def baseLine (base : String) : String := "OS_FLASH_MEM " ++ base ++ "_t " ++ base ++ " ="

variable {table : DeviceTable}

theorem baseLine_start (base : String) : (baseLine base).toList.head? = some 'O' := by
  unfold baseLine
  simp [String.toList_append]

theorem baseLine_unbroken (worded : TableWorded table) : Unbroken (baseLine table.base) := by
  have base := worded.base.unbroken
  unfold baseLine
  simp only [unbroken_append]
  exact ⟨⟨⟨⟨by decide, base⟩, by decide⟩, base⟩, by decide⟩

theorem tableLines_eq (table : DeviceTable) :
    tableLines table = sectionComment (table.title ++ " IO configuration structure") ++
      [baseLine table.base] ++ aggregate (mapLast groupLines table.groups) "\x7d;" := rfl

theorem tableLines_unbroken (worded : TableWorded table) :
    ∀ line ∈ tableLines table, Unbroken line := by
  have title : Unbroken (table.title ++ " IO configuration structure") :=
    (unbroken_append _ _).2 ⟨worded.title, by decide⟩
  rw [tableLines_eq]
  simp only [List.forall_mem_append]
  refine ⟨⟨sectionComment_unbroken _ title, List.forall_mem_singleton.2 (baseLine_unbroken worded)⟩,
    forall_mem_aggregate _ _ _ (by decide) (by decide) (by decide) (by decide) ?_⟩
  exact forall_mem_mapLast _ _ _ fun last group member =>
    groupLines_unbroken (worded.rows group member) last

theorem initializer_start (table : DeviceTable) (c : Char) (other : c ∉ [' ', '\x7b', '\x7d']) :
    ∀ line ∈ aggregate (mapLast groupLines table.groups) "\x7d;", line.toList.head? ≠ some c := by
  simp only [List.mem_cons, List.not_mem_nil, or_false, not_or] at other
  have indented : ∀ lines ∈ mapLast groupLines table.groups, ∀ line ∈ lines,
      line.toList.head? ≠ some c := by
    apply forall_mem_mapLast
    intro last group _ line member
    rw [groupLines_start last group line member]
    simpa using Ne.symm other.1
  apply forall_mem_aggregate (fun line => line.toList.head? ≠ some c)
  case opened => simpa using Ne.symm other.2.1
  case between => simp
  case closed => simpa using Ne.symm other.2.2
  case both => simpa using Ne.symm other.2.1
  case each => exact indented

theorem tableLines_start (table : DeviceTable) (c : Char)
    (other : c ∉ ['/', 'O', ' ', '\x7b', '\x7d']) :
    ∀ line ∈ tableLines table, line.toList.head? ≠ some c := by
  obtain ⟨slash, letter, inside⟩ : c ≠ '/' ∧ c ≠ 'O' ∧ c ∉ [' ', '\x7b', '\x7d'] := by
    simpa only [List.mem_cons, not_or] using other
  have base : (baseLine table.base).toList.head? ≠ some c := by
    rw [baseLine_start]
    exact fun same => letter (Option.some.inj same).symm
  rw [tableLines_eq]
  simp only [List.forall_mem_append]
  exact ⟨⟨sectionComment_start _ c slash, List.forall_mem_singleton.2 base⟩,
    initializer_start table c inside⟩

/-- The groups of a table are read from its initializer. -/
theorem filterMap_part?_tableLines (worded : TableWorded table) :
    (tableLines table).filterMap part? = (table.groups.map groupReading).flatMap partsOf := by
  have comment := filterMap_part?_eq_nil _
    (sectionComment_start (table.title ++ " IO configuration structure") ' ' (by decide))
  have opening : [baseLine table.base].filterMap part? = [] := by
    have start : (baseLine table.base).toList.head? ≠ some ' ' := by
      rw [baseLine_start]
      decide
    exact filterMap_part?_eq_nil _ (List.forall_mem_singleton.2 start)
  have groups : (mapLast groupLines table.groups).map (List.filterMap part?) =
      table.groups.map fun group => partsOf (groupReading group) :=
    map_mapLast _ _ _ _ fun last group member =>
      filterMap_groupLines (worded.rows group member) last
  rw [tableLines_eq, List.filterMap_append, List.filterMap_append, comment, opening,
    filterMap_aggregate _ _ _ (by decide) (by decide) (by decide) (by decide), List.flatMap_def,
    groups, List.flatMap_def, List.map_map]
  rfl

end PinTable.Listing
