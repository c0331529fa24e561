import PinTable.Proofs.Listing.TableText
import PinTable.Proofs.Reading.Records
import PinTable.Proofs.Symbol

set_option autoImplicit false

namespace PinTable.Listing

open Reading

/-- The start of the line that defines the head of a list of pins. -/
def headStart : String := "OS_FLASH_MEM Pin *"

/-- The list heads that a text defines. -/
def headsIn (text : String) : List Definition := (linesIn text).filterMap (definition? headStart)

theorem definition?_baseLine (base : String) (word : Word base) :
    definition? headStart (baseLine base) = none := by
  apply definition?_eq_none
  cases found : after? headStart (baseLine base) with
  | none => rfl
  | some rest =>
      -- A base name is no word of two parts, so the type of the table is not a pointer to pins.
      have opening : baseLine base =
          "OS_FLASH_MEM " ++ (base ++ ("_t" ++ (" " ++ (base ++ " =")))) := by
        unfold baseLine
        simp only [String.append_assoc]
        rfl
      have head : headStart ++ rest = "OS_FLASH_MEM " ++ ("Pin" ++ (" " ++ ("*" ++ rest))) := by
        simp only [← String.append_assoc]
        rfl
      have same := (eq_append_of_after? _ _ _ found).trans head
      rw [opening] at same
      have behind := congrArg String.toList ((String.append_right_inj _).1 same)
      have parts : (base ++ "_t").toList ++ ' ' :: (base ++ " =").toList =
          "Pin".toList ++ ' ' :: ("*" ++ rest).toList := by
        simpa [String.toList_append] using behind
      have free : ' ' ∉ (base ++ "_t").toList := by
        have symbol : Word (base ++ "_t") := (word_append _ _).2 ⟨word, by decide⟩
        exact symbol.not_mem ' ' rfl
      obtain ⟨symbols, _⟩ := eq_of_split_first ' ' _ _ _ _ free (by decide) parts
      have last := congrArg List.getLast? symbols
      rw [String.toList_append, List.getLast?_append] at last
      cases last

variable {table : DeviceTable}

/-- Lines that start with other characters define no list heads. -/
theorem filterMap_headStart_eq_nil (lines : List String)
    (different : ∀ line ∈ lines, line.toList.head? ≠ some 'O') :
    lines.filterMap (definition? headStart) = [] := by
  rw [List.filterMap_eq_nil_iff]
  intro line member
  exact definition?_eq_none _ line (after?_eq_none _ line 'O' rfl (different line member))

theorem filterMap_headStart_tableLines (worded : TableWorded table) :
    (tableLines table).filterMap (definition? headStart) = [] := by
  rw [tableLines_eq, List.filterMap_append, List.filterMap_append,
    filterMap_headStart_eq_nil _ (sectionComment_start _ 'O' (by decide)),
    List.filterMap_cons_none (definition?_baseLine _ worded.base),
    filterMap_headStart_eq_nil _ (initializer_start table 'O' (by decide))]
  rfl

def groupListLine (base : String) : String :=
  "static OS_FLASH_MEM PinGroupHdr * OS_FLASH_MEM " ++ groupListSymbol base ++ "[] ="

theorem groupListSymbol_unbroken (base : String) (unbroken : Unbroken base) :
    Unbroken (groupListSymbol base) := by
  unfold groupListSymbol
  rw [unbroken_append]
  exact ⟨unbroken, by decide⟩

/-- What holds of each line in the list of groups. -/
theorem forall_mem_groupListLines (holds : String → Prop) (table : DeviceTable)
    (comment : ∀ line ∈ sectionComment "List of pin type groups", holds line)
    (opening : holds (groupListLine table.base)) (brace : holds "\x7b") (none : holds "")
    (entries : ∀ last, ∀ group ∈ table.groups, holds (groupEntry table.base last group))
    (closing : holds "\x7d;") : ∀ line ∈ groupListLines table, holds line := by
  have lines : groupListLines table = sectionComment "List of pin type groups" ++
      [groupListLine table.base, "\x7b"] ++
      (if table.groups.isEmpty then [""] else mapLast (groupEntry table.base) table.groups) ++
      ["\x7d;"] := rfl
  rw [lines]
  simp only [List.forall_mem_append]
  refine ⟨⟨⟨comment, List.forall_mem_cons.2 ⟨opening, List.forall_mem_singleton.2 brace⟩⟩, ?_⟩,
    List.forall_mem_singleton.2 closing⟩
  split
  · exact List.forall_mem_singleton.2 none
  · exact forall_mem_mapLast _ _ _ entries

theorem groupListLines_unbroken (worded : TableWorded table) :
    ∀ line ∈ groupListLines table, Unbroken line := by
  have base := worded.base.unbroken
  apply forall_mem_groupListLines
  case comment => exact sectionComment_unbroken _ (by decide)
  case opening =>
    unfold groupListLine
    simp only [unbroken_append]
    exact ⟨⟨by decide, groupListSymbol_unbroken _ base⟩, by decide⟩
  case brace => decide
  case none => decide
  case entries =>
    intro last group _
    have comma : Unbroken (commaUnless last) := by
      cases last <;> decide
    unfold groupEntry
    simp only [unbroken_append]
    exact ⟨⟨⟨⟨⟨by decide, base⟩, by decide⟩, (word_kindName _).unbroken⟩, by decide⟩, comma⟩
  case closing => decide

theorem filterMap_part?_groupListLines (table : DeviceTable) :
    (groupListLines table).filterMap part? = [] := by
  rw [List.filterMap_eq_nil_iff]
  apply forall_mem_groupListLines
  case comment =>
    exact List.filterMap_eq_nil_iff.1
      (filterMap_part?_eq_nil _ (sectionComment_start _ ' ' (by decide)))
  case opening =>
    unfold groupListLine
    simp only [String.append_assoc]
    exact part?_eq_none _ (after?_append_eq_none _ _ _ (by decide) (by decide))
      (after?_append_eq_none _ _ _ (by decide) (by decide))
  case brace => decide
  case none => decide
  case entries =>
    intro last group _
    unfold groupEntry
    simp only [String.append_assoc]
    exact part?_eq_none _ (after?_append_eq_none _ _ _ (by decide) (by decide))
      (after?_append_eq_none _ _ _ (by decide) (by decide))
  case closing => decide

theorem groupListLines_start (table : DeviceTable) (c : Char)
    (other : c ∉ ['/', 's', ' ', '\x7b', '\x7d']) :
    ∀ line ∈ groupListLines table, line.toList.head? ≠ some c := by
  simp only [List.mem_cons, List.not_mem_nil, or_false, not_or] at other
  obtain ⟨slash, letter, blank, opens, closes⟩ := other
  apply forall_mem_groupListLines
  case comment => exact sectionComment_start _ c slash
  case opening =>
    unfold groupListLine
    simpa [String.toList_append] using Ne.symm letter
  case brace => simpa using Ne.symm opens
  case none => simp
  case entries =>
    intro last group _
    unfold groupEntry
    simpa [String.toList_append] using Ne.symm blank
  case closing => simpa using Ne.symm closes

def topLine (base : String) : String :=
  "OS_FLASH_MEM IoPinsHdr " ++ base ++ "_hdr = " ++ braced (groupListSymbol base ++ ", sizeof(" ++
    groupListSymbol base ++ ")/sizeof(PinGroupHdr*)") ++ ";"

theorem topLines_eq (table : DeviceTable) :
    topLines table = sectionComment (table.title ++ " IO configuration top header structure") ++
      [topLine table.base] := rfl

theorem topLines_unbroken (worded : TableWorded table) :
    ∀ line ∈ topLines table, Unbroken line := by
  have title : Unbroken (table.title ++ " IO configuration top header structure") :=
    (unbroken_append _ _).2 ⟨worded.title, by decide⟩
  have base := worded.base.unbroken
  have list := groupListSymbol_unbroken _ base
  have top : Unbroken (topLine table.base) := by
    unfold topLine braced
    simp only [unbroken_append]
    exact ⟨⟨⟨⟨by decide, base⟩, by decide⟩, ⟨by decide, ⟨⟨list, by decide⟩, list⟩, by decide⟩,
      by decide⟩, by decide⟩
  rw [topLines_eq]
  simp only [List.forall_mem_append]
  exact ⟨sectionComment_unbroken _ title, List.forall_mem_singleton.2 top⟩

theorem topLines_start (table : DeviceTable) (c : Char) (other : c ∉ ['/', 'O']) :
    ∀ line ∈ topLines table, line.toList.head? ≠ some c := by
  simp only [List.mem_cons, List.not_mem_nil, or_false, not_or] at other
  have top : (topLine table.base).toList.head? ≠ some c := by
    unfold topLine
    simpa [String.toList_append] using Ne.symm other.2
  rw [topLines_eq]
  simp only [List.forall_mem_append]
  exact ⟨sectionComment_start _ c other.1, List.forall_mem_singleton.2 top⟩

theorem filterMap_headStart_topLines (table : DeviceTable) :
    (topLines table).filterMap (definition? headStart) = [] := by
  have top : definition? headStart (topLine table.base) = none := by
    apply definition?_eq_none
    unfold topLine
    simp only [String.append_assoc]
    exact after?_append_eq_none _ _ _ (by decide) (by decide)
  rw [topLines_eq, List.filterMap_append, List.filterMap_cons_none top,
    filterMap_headStart_eq_nil _ (sectionComment_start _ 'O' (by decide))]
  rfl

theorem word_tagSymbol (base tag : String) (baseWord : Word base) (tagWord : Word tag) :
    Word (tagSymbol base tag) := by
  simp only [tagSymbol, word_append]
  exact ⟨⟨⟨baseWord, by decide⟩, tagWord⟩, by decide⟩

theorem headDefinition_eq (base : String) (head : String × QualifiedPin) :
    headDefinition base head = headStart ++ (tagSymbol base head.1 ++ (" = " ++
      (head.2.address ++ ";"))) := by
  unfold headDefinition
  simp only [String.append_assoc]
  rfl

/-- What holds of the comment and of what is written of each head holds of every line. -/
theorem forall_mem_headsSection (table : DeviceTable) (write : String × QualifiedPin → String)
    (holds : String → Prop) (comment : ∀ line ∈ sectionComment headsTitle, holds line)
    (heads : ∀ head ∈ table.tags.headPins, holds (write head)) :
    ∀ line ∈ headsSection table write, holds line := by
  unfold headsSection
  split
  · exact fun _ member => absurd member List.not_mem_nil
  · exact List.forall_mem_append.2 ⟨comment, List.forall_mem_map.2 heads⟩

/-- A reader that passes over the comment reads head by head. -/
theorem filterMap_headsSection {α : Type} (table : DeviceTable)
    (write : String × QualifiedPin → String) (read : String → Option α)
    (image : String × QualifiedPin → α) (comment : (sectionComment headsTitle).filterMap read = [])
    (heads : ∀ head ∈ table.tags.headPins, read (write head) = some (image head)) :
    (headsSection table write).filterMap read = table.tags.headPins.map image := by
  unfold headsSection
  split
  · next none =>
      rw [TagChains.isEmpty, List.isEmpty_iff] at none
      rw [TagChains.headPins, none]
      rfl
  · rw [List.filterMap_append, comment, filterMap_written write read image _ heads,
      List.nil_append]

theorem headsSection_unbroken (worded : TableWorded table) :
    ∀ line ∈ headsSection table (headDefinition table.base), Unbroken line := by
  apply forall_mem_headsSection
  case comment => exact sectionComment_unbroken _ (by decide)
  case heads =>
    intro head member
    have symbol := word_tagSymbol _ _ worded.base (worded.tags head member)
    have address : Word head.2.address := word_addressOf _ (worded.heads head member)
    rw [headDefinition_eq]
    simp only [unbroken_append]
    exact ⟨by decide, symbol.unbroken, by decide, address.unbroken, by decide⟩

theorem headsSection_start (table : DeviceTable) (c : Char) (other : c ∉ ['/', 'O']) :
    ∀ line ∈ headsSection table (headDefinition table.base), line.toList.head? ≠ some c := by
  simp only [List.mem_cons, List.not_mem_nil, or_false, not_or] at other
  apply forall_mem_headsSection
  case comment => exact sectionComment_start _ c other.1
  case heads =>
    intro head _
    rw [headDefinition_eq]
    simpa [String.toList_append, headStart] using Ne.symm other.2

def headReading (base : String) (head : String × QualifiedPin) : Definition :=
  ⟨tagSymbol base head.1, head.2.address⟩

/-- The list heads are read as they are written. -/
theorem filterMap_headStart_headsSection (worded : TableWorded table) :
    (headsSection table (headDefinition table.base)).filterMap (definition? headStart) =
      table.tags.headPins.map (headReading table.base) := by
  apply filterMap_headsSection
  case comment => exact filterMap_headStart_eq_nil _ (sectionComment_start _ 'O' (by decide))
  case heads =>
    intro head member
    have symbol := word_tagSymbol _ _ worded.base (worded.tags head member)
    have address : Word head.2.address := word_addressOf _ (worded.heads head member)
    rw [headDefinition_eq, definition?_line _ _ _ symbol (address.not_mem ';' rfl)]
    rfl

theorem deviceSource_unbroken (worded : TableWorded table) :
    ∀ line ∈ deviceSource table, Unbroken line := by
  unfold deviceSource
  simp only [List.forall_mem_append]
  refine ⟨⟨⟨⟨?_, tableLines_unbroken worded⟩, groupListLines_unbroken worded⟩,
    topLines_unbroken worded⟩, headsSection_unbroken worded⟩
  intro line member
  obtain ⟨group, isGroup, isLine⟩ := List.mem_flatMap.1 member
  exact groupDefinitions_unbroken (worded.rows group isGroup) line isLine

theorem definitions_start (table : DeviceTable) (c : Char) (other : c ∉ ['/', 's', 'P']) :
    ∀ line ∈ table.groups.flatMap groupDefinitions, line.toList.head? ≠ some c := by
  intro line member
  obtain ⟨group, _, isLine⟩ := List.mem_flatMap.1 member
  exact groupDefinitions_start group c other line isLine

/-- The table in the block of a device is that of the device. -/
theorem tableIn_deviceSource (worded : TableWorded table) :
    tableIn (textOf (deviceSource table)) = table.groups.map groupReading := by
  have parts : partsIn (textOf (deviceSource table)) =
      (table.groups.map groupReading).flatMap partsOf := by
    rw [partsIn, linesIn_textOf _ (deviceSource_unbroken worded), deviceSource]
    simp only [List.filterMap_append]
    rw [filterMap_part?_eq_nil _ (definitions_start table ' ' (by decide)),
      filterMap_part?_tableLines worded, filterMap_part?_groupListLines,
      filterMap_part?_eq_nil _ (topLines_start table ' ' (by decide)),
      filterMap_part?_eq_nil _ (headsSection_start table ' ' (by decide)),
      filterMap_part?_eq_nil [""] (by decide)]
    simp only [List.append_nil, List.nil_append]
  rw [tableIn, parts, groupsIn_partsOf]

/-- The list heads in the block of a device are those of its tags. -/
theorem headsIn_deviceSource (worded : TableWorded table) :
    headsIn (textOf (deviceSource table)) =
      table.tags.headPins.map (headReading table.base) := by
  rw [headsIn, linesIn_textOf _ (deviceSource_unbroken worded), deviceSource]
  simp only [List.filterMap_append]
  rw [filterMap_headStart_eq_nil _ (definitions_start table 'O' (by decide)),
    filterMap_headStart_tableLines worded,
    filterMap_headStart_eq_nil _ (groupListLines_start table 'O' (by decide)),
    filterMap_headStart_topLines, filterMap_headStart_headsSection worded,
    filterMap_headStart_eq_nil [""] (by decide)]
  simp only [List.append_nil, List.nil_append]

end PinTable.Listing
