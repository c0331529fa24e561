import PinTable.Proofs.Reading.Words

set_option autoImplicit false

namespace PinTable.Reading

/-- The first line of a group: its name, and the entries of its header. -/
structure TableHeading where
  name : String
  entries : List String
  deriving DecidableEq, Repr

/-- The line of a row: its name, and the entries in front of the last one. -/
structure TableRow where
  name : String
  entries : List String
  deriving DecidableEq, Repr

/-- A line that says something of the table. -/
inductive TablePart where
  | heading (heading : TableHeading)
  | row (row : TableRow)
  deriving DecidableEq, Repr

def headingStart : String := "  \x7b\x7b"

def rowStart : String := "    \x7b"

def heading? (line : String) : Option TableHeading := do
  let rest ← after? headingStart line
  let name ← closingComment? line
  return ⟨name, entriesIn (upTo '\x7d' rest)⟩

/-- The row in a line. Its entries that are words are the first six. -/
def row? (line : String) : Option TableRow := do
  let rest ← after? rowStart line
  let name ← closingComment? line
  return ⟨name, (entriesIn rest).take 6⟩

def part? (line : String) : Option TablePart :=
  ((heading? line).map .heading).or ((row? line).map .row)

def partsIn (text : String) : List TablePart := (linesIn text).filterMap part?

/-- The rows in front of the first heading, and the groups. -/
def groupsIn : List TablePart → List TableRow × List (TableHeading × List TableRow)
  | [] => ([], [])
  | .heading heading :: rest => ([], (heading, (groupsIn rest).1) :: (groupsIn rest).2)
  | .row row :: rest => (row :: (groupsIn rest).1, (groupsIn rest).2)

/-- The groups of the table in a text, with their rows. -/
def tableIn (text : String) : List (TableHeading × List TableRow) := (groupsIn (partsIn text)).2

/-- A group as it is written. -/
def partsOf (group : TableHeading × List TableRow) : List TablePart :=
  .heading group.1 :: group.2.map .row

theorem groupsIn_rows (rows : List TableRow) (rest : List TablePart) :
    groupsIn (rows.map .row ++ rest) = (rows ++ (groupsIn rest).1, (groupsIn rest).2) := by
  induction rows with
  | nil => rfl
  | cons row others ih =>
      rw [List.map_cons, List.cons_append, groupsIn, ih]
      rfl

/-- Groups that are written are read. -/
theorem groupsIn_partsOf (groups : List (TableHeading × List TableRow)) :
    groupsIn (groups.flatMap partsOf) = ([], groups) := by
  induction groups with
  | nil => rfl
  | cons group rest ih =>
      rw [List.flatMap_cons, partsOf, List.cons_append, groupsIn, groupsIn_rows, ih,
        List.append_nil]

theorem heading?_line (entries : List String) (nonempty : entries ≠ [])
    (each : ∀ entry ∈ entries, Word entry) (middle name : String) (word : Word name) :
    heading? (headingStart ++ (commaList entries ++ ("\x7d" ++ (middle ++
      (" /* " ++ (name ++ " */")))))) = some ⟨name, entries⟩ := by
  have inner : upTo '\x7d' (commaList entries ++ ("\x7d" ++ (middle ++
      (" /* " ++ (name ++ " */"))))) = commaList entries := by
    apply upTo_append '\x7d' _ _ (not_mem_commaList entries each '\x7d' rfl (by decide))
    rw [String.toList_append]
    rfl
  have named := closingComment?_append (headingStart ++ (commaList entries ++ ("\x7d" ++ middle)))
    name word
  simp only [String.append_assoc] at named
  rw [heading?, named, after?_append, Option.bind_eq_bind, Option.bind_some, Option.bind_some,
    inner, entriesIn_commaList entries nonempty each]
  rfl

theorem row?_line (entries : List String) (six : entries.length = 6)
    (each : ∀ entry ∈ entries, Word entry) (last name : String) (word : Word name) :
    row? (rowStart ++ (commaList entries ++ (", " ++ (last ++ (" /* " ++ (name ++ " */")))))) =
      some ⟨name, entries⟩ := by
  have nonempty : entries ≠ [] := by
    rintro rfl
    cases six
  have named := closingComment?_append (rowStart ++ (commaList entries ++ (", " ++ last))) name word
  simp only [String.append_assoc] at named
  rw [row?, named, after?_append, Option.bind_eq_bind, Option.bind_some, Option.bind_some,
    entriesIn_commaList_append entries nonempty each, ← six, List.take_left]
  rfl

theorem part?_heading (line : String) (heading : TableHeading)
    (found : heading? line = some heading) : part? line = some (.heading heading) := by
  rw [part?, found]
  rfl

theorem part?_row (rest : String) (row : TableRow) (found : row? (rowStart ++ rest) = some row) :
    part? (rowStart ++ rest) = some (.row row) := by
  have other : after? headingStart (rowStart ++ rest) = none :=
    after?_append_eq_none _ _ _ (by decide) (by decide)
  rw [part?, heading?, other, found]
  rfl

theorem part?_eq_none (line : String) (noHeading : after? headingStart line = none)
    (noRow : after? rowStart line = none) : part? line = none := by
  rw [part?, heading?, row?, noHeading, noRow]
  rfl

/-- Lines that start with other characters say nothing of the table. -/
theorem filterMap_part?_eq_nil (lines : List String)
    (different : ∀ line ∈ lines, line.toList.head? ≠ some ' ') : lines.filterMap part? = [] := by
  rw [List.filterMap_eq_nil_iff]
  intro line member
  exact part?_eq_none line (after?_eq_none _ line ' ' rfl (different line member))
    (after?_eq_none _ line ' ' rfl (different line member))

end PinTable.Reading
