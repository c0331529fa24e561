import PinTable.Proofs.Listing.LayoutText
import PinTable.Proofs.Reading.Declarations

set_option autoImplicit false

namespace PinTable.Listing

open Reading

/-- What stands between the start and the end of a line. -/
def enclosed? (front behind line : String) : Option String := do
  let rest ← after? front line
  before? behind rest

theorem enclosed?_eq_some_iff (front behind line inner : String) :
    enclosed? front behind line = some inner ↔ line = front ++ inner ++ behind := by
  constructor
  · intro found
    obtain ⟨rest, isRest, isInner⟩ := Option.bind_eq_some_iff.1 found
    rw [eq_append_of_after? _ _ _ isRest, eq_append_of_before? _ _ _ isInner, String.append_assoc]
  · rintro rfl
    simp only [enclosed?, String.append_assoc, after?_append, Option.bind_eq_bind,
      Option.bind_some, before?_append]

theorem enclosed?_eq_none (front behind line : String) (c : Char)
    (starts : front.toList.head? = some c) (other : line.toList.head? ≠ some c) :
    enclosed? front behind line = none := by
  rw [enclosed?, after?_eq_none front line c starts other]
  rfl

/-- The title of a section, on a line of its own. -/
def title? (line : String) : Option String := enclosed? "/* " " */" line

/-- The titles among lines, in order. -/
def titlesAmong (lines : List String) : List String := lines.filterMap title?

theorem title?_eq_some_iff (line title : String) :
    title? line = some title ↔ line = "/* " ++ title ++ " */" :=
  enclosed?_eq_some_iff _ _ line title

theorem title?_eq_none (line : String) (other : line.toList.head? ≠ some '/') :
    title? line = none :=
  enclosed?_eq_none _ _ line '/' rfl other

theorem titlesAmong_append (front behind : List String) :
    titlesAmong (front ++ behind) = titlesAmong front ++ titlesAmong behind :=
  List.filterMap_append ..

theorem titlesAmong_comment (title : String) : titlesAmong (sectionComment title) = [title] := by
  rw [titlesAmong, sectionComment, List.filterMap_cons_none (title?_eq_none "" (by decide)),
    List.filterMap_cons_some ((title?_eq_some_iff _ title).2 rfl), List.filterMap_nil]

theorem titlesAmong_eq_nil (lines : List String)
    (other : ∀ line ∈ lines, line.toList.head? ≠ some '/') : titlesAmong lines = [] :=
  List.filterMap_eq_nil_iff.2 fun line member => title?_eq_none line (other line member)

/-- A line with a known start has no title, unless the start is a slash. -/
theorem start_ne_slash (front rest : String) (c : Char) (starts : front.toList.head? = some c)
    (other : c ≠ '/') : (front ++ rest).toList.head? ≠ some '/' := by
  rw [head?_append_of_head? _ _ c starts]
  exact fun same => other (Option.some.inj same)

/-- A text does not end in what has another last character. -/
theorem ne_append_of_last (text front behind : String) (c : Char)
    (last : behind.toList.getLast? = some c) (other : text.toList.getLast? ≠ some c) :
    text ≠ front ++ behind := by
  rintro rfl
  rw [String.toList_append, List.getLast?_append, last, Option.some_or] at other
  exact other rfl

/-- The title of the section on the arrays of a group. -/
def arraysTitle (kind : PinKind) : String := "Parameters for " ++ kind.name

theorem rowDefinitions_start (row : Row) :
    ∀ line ∈ rowDefinitions row, line.toList.head? ≠ some '/' := by
  have array : (arrayLine row).toList.head? ≠ some '/' := by
    unfold arrayLine
    simp only [String.append_assoc]
    exact start_ne_slash _ _ 's' rfl (by decide)
  have interrupt : (interruptLine row).toList.head? ≠ some '/' := by
    unfold interruptLine
    simp only [String.append_assoc]
    exact start_ne_slash _ _ 'P' rfl (by decide)
  unfold rowDefinitions
  split
  · exact List.forall_mem_cons.2 ⟨array, List.forall_mem_singleton.2 interrupt⟩
  · exact List.forall_mem_singleton.2 array

theorem titles_rowDefinitions (rows : List Row) : titlesAmong (rows.flatMap rowDefinitions) = [] := by
  apply titlesAmong_eq_nil
  intro line member
  obtain ⟨row, _, isLine⟩ := List.mem_flatMap.1 member
  exact rowDefinitions_start row line isLine

/-- The groups that have rows. -/
def filledGroups (table : DeviceTable) : List GroupTable :=
  table.groups.filter fun group => !group.rows.isEmpty

theorem isEmpty_of_mem_filledGroups {table : DeviceTable} {group : GroupTable}
    (member : group ∈ filledGroups table) : group.rows.isEmpty = false := by
  simpa using (List.mem_filter.1 member).2

theorem groupDefinitions_filled (group : GroupTable) (filled : group.rows.isEmpty = false) :
    groupDefinitions group =
      sectionComment (arraysTitle group.kind) ++ group.rows.flatMap rowDefinitions := by
  rw [groupDefinitions, filled, if_neg Bool.false_ne_true, arraysTitle]

/-- Groups without rows need no definitions. -/
theorem definitions_eq (table : DeviceTable) :
    table.groups.flatMap groupDefinitions = (filledGroups table).flatMap groupDefinitions := by
  rw [filledGroups]
  induction table.groups with
  | nil => rfl
  | cons group rest ih =>
      rw [List.flatMap_cons, List.filter_cons, ih]
      split
      · rw [List.flatMap_cons]
      · next none =>
          have empty : group.rows.isEmpty = true := by simpa using none
          rw [groupDefinitions, if_pos empty, List.nil_append]

theorem titles_definitions (table : DeviceTable) :
    titlesAmong (table.groups.flatMap groupDefinitions) =
      (filledGroups table).map fun group => arraysTitle group.kind := by
  have each : ∀ group ∈ filledGroups table,
      titlesAmong (groupDefinitions group) = [arraysTitle group.kind] := by
    intro group member
    rw [groupDefinitions_filled group (isEmpty_of_mem_filledGroups member), titlesAmong_append,
      titlesAmong_comment, titles_rowDefinitions, List.append_nil]
  rw [definitions_eq, titlesAmong, List.filterMap_flatMap]
  exact (List.flatMap_congr each).trans (List.map_eq_flatMap ..).symm

/-- The titles of the table and of what stands behind it, up to the heads of the lists by tag. -/
def tableTitles (table : DeviceTable) : List String :=
  [table.title ++ " IO configuration structure", "List of pin type groups",
    table.title ++ " IO configuration top header structure"]

/-- The title of the lists by tag, if there are any. -/
def headsTitles (table : DeviceTable) : List String :=
  if table.tags.isEmpty then [] else [headsTitle]

theorem titles_headsSection (table : DeviceTable) (write : String × QualifiedPin → String)
    (other : ∀ head, (write head).toList.head? ≠ some '/') :
    titlesAmong (headsSection table write) = headsTitles table := by
  unfold headsSection headsTitles
  split
  · rfl
  · rw [titlesAmong_append, titlesAmong_comment,
      titlesAmong_eq_nil _ (List.forall_mem_map.2 fun head _ => other head), List.append_nil]

theorem titles_tableLines (table : DeviceTable) :
    titlesAmong (tableLines table) = [table.title ++ " IO configuration structure"] := by
  have base : titlesAmong [baseLine table.base] = [] := by
    apply titlesAmong_eq_nil
    rw [List.forall_mem_singleton, baseLine_start]
    decide
  rw [tableLines_eq, titlesAmong_append, titlesAmong_append, titlesAmong_comment, base,
    titlesAmong_eq_nil _ (initializer_start table '/' (by decide)), List.append_nil,
    List.append_nil]

theorem titles_groupListLines (table : DeviceTable) :
    titlesAmong (groupListLines table) = ["List of pin type groups"] := by
  have opening : (groupListLine table.base).toList.head? ≠ some '/' := by
    rw [groupListLine_start]
    decide
  have body : ∀ line ∈ aggregate (groupEntries table) "\x7d;", line.toList.head? ≠ some '/' := by
    apply forall_mem_aggregate (fun line => line.toList.head? ≠ some '/') _ _ (by decide)
      (by decide) (by decide) (by decide)
    unfold groupEntries
    split
    · decide
    · rw [List.forall_mem_singleton]
      apply forall_mem_mapLast
      intro last group _
      rw [groupEntry_eq]
      exact start_ne_slash _ _ ' ' rfl (by decide)
  rw [groupListLines_eq, titlesAmong_append, titlesAmong_comment,
    titlesAmong_eq_nil _ (List.forall_mem_cons.2 ⟨opening, body⟩), List.append_nil]

theorem titles_topLines (table : DeviceTable) :
    titlesAmong (topLines table) = [table.title ++ " IO configuration top header structure"] := by
  have top : (topLine table.base).toList.head? ≠ some '/' := by
    unfold topLine
    simp only [String.append_assoc]
    exact start_ne_slash _ _ 'O' rfl (by decide)
  rw [topLines_eq, titlesAmong_append, titlesAmong_comment,
    titlesAmong_eq_nil _ (List.forall_mem_singleton.2 top), List.append_nil]

/-- The titles of what stands behind the definitions of the rows. -/
theorem titles_behind_definitions (table : DeviceTable) :
    titlesAmong (tableLines table ++ (groupListLines table ++ (topLines table ++
      headsSection table (headDefinition table.base)))) =
        tableTitles table ++ headsTitles table := by
  have heads : ∀ head, (headDefinition table.base head).toList.head? ≠ some '/' := by
    intro head
    rw [headDefinition_eq]
    exact start_ne_slash _ _ 'O' rfl (by decide)
  simp only [titlesAmong_append]
  rw [titles_tableLines, titles_groupListLines, titles_topLines, titles_headsSection table _ heads]
  rfl

theorem titles_deviceSource (table : DeviceTable) :
    titlesAmong (deviceSource table) =
      (filledGroups table).map (fun group => arraysTitle group.kind) ++
        (tableTitles table ++ headsTitles table) := by
  rw [deviceSource, List.append_assoc, List.append_assoc, List.append_assoc, titlesAmong_append,
    titles_definitions, titles_behind_definitions]

/-- The title of the section on the names of pins and tags. -/
def constantsTitle : String :=
  "Name defines for pins and application pin groups (use ifdef to check if HW has pin)"

theorem titles_typeLines (table : DeviceTable) :
    titlesAmong (typeLines table) = [table.title ++ " IO configuration structure"] := by
  have inside : ∀ line ∈ aggregate (table.groups.map structLines) "\x7d",
      line.toList.head? ≠ some '/' := by
    apply forall_mem_aggregate (fun line => line.toList.head? ≠ some '/') _ _ (by decide)
      (by decide) (by decide) (by decide)
    refine List.forall_mem_map.2 fun group _ line isLine => ?_
    rw [structLines_start group line isLine]
    decide
  -- A base name may start like a comment, but the name of the type does not end like one.
  have name : titlesAmong [table.base ++ "_t;"] = [] := by
    refine List.filterMap_eq_nil_iff.2 (List.forall_mem_singleton.2 ?_)
    refine Option.eq_none_iff_forall_ne_some.2 fun title found => ?_
    have last := congrArg (fun line => line.toList.getLast?) ((title?_eq_some_iff _ _).1 found)
    simp only [String.toList_append, List.getLast?_append] at last
    cases last
  have opening : titlesAmong ["typedef struct"] = [] := titlesAmong_eq_nil _ (by decide)
  rw [typeLines]
  simp only [titlesAmong_append]
  rw [titlesAmong_comment, opening, titlesAmong_eq_nil _ inside, name]
  rfl

theorem titles_declarationLines (table : DeviceTable) :
    titlesAmong (declarationLines table) =
      [table.title ++ " IO configuration top header structure",
        "Global " ++ table.title ++ " IO configuration structure"] := by
  have top : titlesAmong ["extern OS_FLASH_MEM_H IoPinsHdr " ++ table.base ++ "_hdr;"] = [] := by
    apply titlesAmong_eq_nil
    rw [List.forall_mem_singleton, String.append_assoc]
    exact start_ne_slash _ _ 'e' rfl (by decide)
  have global : titlesAmong ["extern OS_FLASH_MEM_H " ++ table.base ++ "_t " ++ table.base ++ ";"] =
      [] := by
    apply titlesAmong_eq_nil
    simp only [List.forall_mem_singleton, String.append_assoc]
    exact start_ne_slash _ _ 'e' rfl (by decide)
  rw [declarationLines]
  simp only [titlesAmong_append]
  rw [titlesAmong_comment, titlesAmong_comment, top, global]
  rfl

theorem titles_deviceHeader (table : DeviceTable) :
    titlesAmong (deviceHeader table) =
      [table.title ++ " IO configuration structure",
        table.title ++ " IO configuration top header structure",
        "Global " ++ table.title ++ " IO configuration structure"] ++ headsTitles table ++
        [constantsTitle] := by
  have heads : ∀ head, (headDeclaration table.base head).toList.head? ≠ some '/' := by
    intro head
    unfold headDeclaration
    simp only [String.append_assoc]
    exact start_ne_slash _ _ 'e' rfl (by decide)
  have constants : ∀ line ∈ table.constants.map NameConstant.text,
      line.toList.head? ≠ some '/' := by
    refine List.forall_mem_map.2 fun constant _ => ?_
    unfold NameConstant.text
    simp only [String.append_assoc]
    exact start_ne_slash _ _ '#' rfl (by decide)
  rw [deviceHeader, constantLines, ← constantsTitle]
  simp only [titlesAmong_append]
  rw [titles_typeLines, titles_declarationLines, titles_headsSection table _ heads,
    titlesAmong_comment, titlesAmong_eq_nil _ constants, List.append_nil]
  rfl

end PinTable.Listing
