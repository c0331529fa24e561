import PinTable.Proofs.Listing.DeviceText
import PinTable.Proofs.Reading.Declarations

set_option autoImplicit false

namespace PinTable.Listing

open Reading

def arrayStart : String := "static os_ushort "

/-- The array of settings that a line defines: its symbol and its entries. -/
def array? (line : String) : Option SourceRecord := do
  let rest ← after? arrayStart line
  let declarator := upTo ' ' rest
  let symbol ← before? "[]=" declarator
  let inside ← after? (declarator ++ " \x7b") rest
  return ⟨symbol, entriesIn (upTo '\x7d' inside)⟩

/-- The arrays of settings that a text defines, in order. -/
def arraysIn (text : String) : List SourceRecord := (linesIn text).filterMap array?

def arrayOf (row : Row) : SourceRecord := ⟨row.pin.settingsArray, row.settings.entries⟩

theorem arrayLine_eq (row : Row) :
    arrayLine row = arrayStart ++ (row.pin.settingsArray ++ "[]=" ++ (" \x7b" ++
      (commaList row.settings.entries ++ ("\x7d" ++ ";")))) := by
  have equals : "[]= " = "[]=" ++ " " := rfl
  have opening : " \x7b" = " " ++ "\x7b" := rfl
  unfold arrayLine braced
  simp only [equals, opening, String.append_assoc]
  rfl

theorem array?_arrayLine (row : Row) (base : Word row.pin.base) (name : Word row.pin.name) :
    array? (arrayLine row) = some (arrayOf row) := by
  have word := word_settingsArray row.pin base name
  have entries := word_entries row.settings
  have nonempty : row.settings.entries ≠ [] := by simp [Settings.entries]
  have declarator : upTo ' ' (row.pin.settingsArray ++ "[]=" ++ (" \x7b" ++
      (commaList row.settings.entries ++ ("\x7d" ++ ";")))) = row.pin.settingsArray ++ "[]=" := by
    have isWord : Word (row.pin.settingsArray ++ "[]=") := (word_append _ _).2 ⟨word, by decide⟩
    apply upTo_append ' ' _ _ (isWord.not_mem ' ' rfl)
    rw [String.toList_append]
    rfl
  have inside : upTo '\x7d' (commaList row.settings.entries ++ ("\x7d" ++ ";")) =
      commaList row.settings.entries :=
    upTo_append '\x7d' _ _ (not_mem_commaList _ entries '\x7d' rfl (by decide)) rfl
  rw [arrayLine_eq]
  simp only [array?, after?_append, Option.bind_eq_bind, Option.bind_some, declarator,
    before?_append]
  rw [← String.append_assoc, after?_append, Option.bind_some, inside,
    entriesIn_commaList _ nonempty entries]
  rfl

theorem array?_eq_none (line : String) (other : after? arrayStart line = none) :
    array? line = none := by
  rw [array?, other]
  rfl

/-- Lines that start with other characters define no arrays of settings. -/
theorem filterMap_array?_eq_nil (lines : List String)
    (different : ∀ line ∈ lines, line.toList.head? ≠ some 's') : lines.filterMap array? = [] := by
  rw [List.filterMap_eq_nil_iff]
  intro line member
  exact array?_eq_none line (after?_eq_none _ line 's' rfl (different line member))

theorem arrays_groupDefinitions (group : GroupTable)
    (worded : ∀ row ∈ group.rows, Word row.pin.base ∧ Word row.pin.name) :
    (groupDefinitions group).filterMap array? = group.rows.map arrayOf := by
  have definitions : ∀ row ∈ group.rows, (rowDefinitions row).filterMap array? = [arrayOf row] := by
    intro row member
    have array := array?_arrayLine row (worded row member).1 (worded row member).2
    have interrupt : array? (interruptLine row) = none := by
      apply array?_eq_none
      unfold interruptLine
      simp only [String.append_assoc]
      exact after?_append_eq_none _ _ _ (by decide) (by decide)
    unfold rowDefinitions
    split
    · rw [List.filterMap_cons_some array, List.filterMap_cons_none interrupt, List.filterMap_nil]
    · rw [List.filterMap_cons_some array, List.filterMap_nil]
  unfold groupDefinitions
  split
  · next none =>
      rw [List.isEmpty_iff.1 none]
      rfl
  · rw [List.filterMap_append, List.filterMap_flatMap, List.flatMap_congr definitions,
      filterMap_array?_eq_nil _ (sectionComment_start _ 's' (by decide)), List.nil_append,
      List.map_eq_flatMap]

theorem array?_groupListLines (table : DeviceTable) :
    (groupListLines table).filterMap array? = [] := by
  rw [List.filterMap_eq_nil_iff]
  apply forall_mem_groupListLines
  case comment =>
    exact List.filterMap_eq_nil_iff.1
      (filterMap_array?_eq_nil _ (sectionComment_start _ 's' (by decide)))
  case opening =>
    apply array?_eq_none
    unfold groupListLine
    simp only [String.append_assoc]
    exact after?_append_eq_none _ _ _ (by decide) (by decide)
  case brace => decide
  case none => decide
  case entries =>
    intro last group _
    apply array?_eq_none
    unfold groupEntry
    simp only [String.append_assoc]
    exact after?_append_eq_none _ _ _ (by decide) (by decide)
  case closing => decide

/-- The block of a device defines an array for each of its rows. -/
theorem arrays_deviceSource (table : DeviceTable)
    (worded : ∀ row ∈ table.rows, Word row.pin.base ∧ Word row.pin.name) :
    (deviceSource table).filterMap array? = table.rows.map arrayOf := by
  have groups : ∀ group ∈ table.groups,
      (groupDefinitions group).filterMap array? = group.rows.map arrayOf := by
    intro group isGroup
    apply arrays_groupDefinitions
    exact fun row isRow => worded row (List.mem_flatMap.2 ⟨group, isGroup, isRow⟩)
  rw [deviceSource]
  simp only [List.filterMap_append]
  rw [List.filterMap_flatMap, List.flatMap_congr groups,
    filterMap_array?_eq_nil _ (tableLines_start table 's' (by decide)), array?_groupListLines,
    filterMap_array?_eq_nil _ (topLines_start table 's' (by decide)),
    filterMap_array?_eq_nil _ (headsSection_start table 's' (by decide)), DeviceTable.rows,
    List.map_flatMap]
  simp only [List.append_nil]

end PinTable.Listing
