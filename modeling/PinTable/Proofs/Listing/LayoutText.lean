import PinTable.Proofs.Listing.DeviceText
import PinTable.Proofs.Reading.Aggregate

set_option autoImplicit false

namespace PinTable.Listing

open Reading

def layoutOf (group : GroupTable) : String × List String :=
  (group.kind.name, group.rows.map fun row => row.pin.name)

def pinLine (row : Row) : String := "    Pin " ++ (row.pin.name ++ ";")

theorem structLines_eq (group : GroupTable) : structLines group = groupOpening ++
    (group.rows.map pinLine ++ "  \x7d" :: ["  " ++ (group.kind.name ++ ";")]) := by
  unfold structLines groupOpening pinLine
  simp only [List.append_assoc, String.append_assoc]

/-- The lines of a group are indented. -/
theorem structLines_start (group : GroupTable) :
    ∀ line ∈ structLines group, line.toList.head? = some ' ' := by
  have pins : ∀ line ∈ group.rows.map pinLine, line.toList.head? = some ' ' :=
    List.forall_mem_map.2 fun row _ => head?_append_of_head? _ _ ' ' rfl
  have kind : ("  " ++ (group.kind.name ++ ";")).toList.head? = some ' ' :=
    head?_append_of_head? _ _ ' ' rfl
  rw [structLines_eq]
  simp only [List.forall_mem_append, List.forall_mem_cons, List.not_mem_nil, false_implies,
    implies_true, and_true]
  exact ⟨by decide, pins, rfl, kind⟩

theorem structLines_unbroken {group : GroupTable} (worded : ∀ row ∈ group.rows, RowWorded row) :
    ∀ line ∈ structLines group, Unbroken line := by
  have pins : ∀ line ∈ group.rows.map pinLine, Unbroken line := by
    refine List.forall_mem_map.2 fun row member => ?_
    unfold pinLine
    simp only [unbroken_append]
    exact ⟨by decide, (worded row member).name.unbroken, by decide⟩
  have kind : Unbroken ("  " ++ (group.kind.name ++ ";")) := by
    simp only [unbroken_append]
    exact ⟨by decide, (word_kindName _).unbroken, by decide⟩
  rw [structLines_eq]
  simp only [List.forall_mem_append, List.forall_mem_cons, List.not_mem_nil, false_implies,
    implies_true, and_true]
  exact ⟨by decide, pins, by decide, kind⟩

/-- A group that is written is read. -/
theorem memberGroup?_structLines {group : GroupTable}
    (worded : ∀ row ∈ group.rows, RowWorded row) :
    memberGroup? (structLines group) = some (layoutOf group) := by
  have free : "  \x7d" ∉ group.rows.map pinLine := by
    intro member
    obtain ⟨row, _, same⟩ := List.mem_map.1 member
    have pin := congrArg (after? "    Pin ") same
    rw [pinLine, after?_append] at pin
    cases pin
  have pins : (group.rows.map pinLine).mapM (declared? "    Pin ") =
      some (group.rows.map fun row => row.pin.name) :=
    mapM_map _ _ _ _ fun row member => declared?_line _ _ (worded row member).name
  have kind : declared? "  " ("  " ++ (group.kind.name ++ ";")) = some group.kind.name :=
    declared?_line _ _ (word_kindName _)
  rw [memberGroup?, structLines_eq, List.dropPrefix?_append_of_beq _ (beq_self_eq_true _)]
  simp only [takeWhile_ne_append _ _ _ free, pins, dropWhile_ne_append _ _ _ free, kind,
    Option.bind_eq_bind, Option.bind_some]
  rfl

variable {table : DeviceTable}

theorem typeLines_unbroken (worded : TableWorded table) :
    ∀ line ∈ typeLines table, Unbroken line := by
  have title : Unbroken (table.title ++ " IO configuration structure") :=
    (unbroken_append _ _).2 ⟨worded.title, by decide⟩
  have name : Unbroken (table.base ++ "_t;") :=
    (unbroken_append _ _).2 ⟨worded.base.unbroken, by decide⟩
  have groups : ∀ line ∈ aggregate (table.groups.map structLines) "\x7d", Unbroken line :=
    forall_mem_aggregate _ _ _ (by decide) (by decide) (by decide) (by decide)
      (List.forall_mem_map.2 fun group member => structLines_unbroken (worded.rows group member))
  unfold typeLines
  simp only [List.forall_mem_append]
  exact ⟨⟨⟨sectionComment_unbroken _ title, by decide⟩, groups⟩, List.forall_mem_singleton.2 name⟩

/-- The type of a table is read from the header with its groups and their pins. -/
theorem structTypeIn?_deviceHeader (worded : TableWorded table) :
    structTypeIn? (textOf (deviceHeader table)) =
      some ⟨table.base ++ "_t", table.groups.map layoutOf⟩ := by
  let behind := textOf (declarationLines table ++ (headsSection table (headDeclaration table.base) ++
    constantLines table))
  have text : textOf (deviceHeader table) = textOf (typeLines table) ++ behind := by
    rw [deviceHeader, List.append_assoc, List.append_assoc, textOf_append]
  have lines : linesIn (textOf (deviceHeader table)) =
      sectionComment (table.title ++ " IO configuration structure") ++ "typedef struct" ::
        (aggregate (table.groups.map structLines) "\x7d" ++
          (table.base ++ ("_t" ++ ";")) :: linesIn behind) := by
    rw [text, linesIn_textOf_append _ (typeLines_unbroken worded), typeLines]
    simp only [List.append_assoc]
    rfl
  have fresh : "typedef struct" ∉ sectionComment (table.title ++ " IO configuration structure") :=
    fun member => sectionComment_start _ 't' (by decide) _ member rfl
  have indented : ∀ part ∈ table.groups.map structLines, ∀ line ∈ part,
      line.toList.head? = some ' ' :=
    List.forall_mem_map.2 fun group _ => structLines_start group
  have groups : (table.groups.map structLines).mapM memberGroup? =
      some (table.groups.map layoutOf) :=
    mapM_map _ _ _ _ fun group member => memberGroup?_structLines (worded.rows group member)
  have name : declared? "" (table.base ++ ("_t" ++ ";")) = some (table.base ++ "_t") := by
    have word : Word (table.base ++ "_t") := (word_append _ _).2 ⟨worded.base, by decide⟩
    have found := declared?_line "" _ word
    rwa [String.empty_append, String.append_assoc] at found
  have body := aggregate?_linesAfter lines fresh rfl indented
  simp only [structTypeIn?, body, groups, List.head?_cons, name, Option.bind_eq_bind,
    Option.bind_some]
  rfl

def rowImage (last : Bool) (row : Row) : Punctuated TableRow :=
  ⟨readingOf row, commasUnless last⟩

def groupImage (last : Bool) (group : GroupTable) : Punctuated InitialGroup :=
  ⟨⟨⟨headingOf group, 1⟩, mapLast rowImage group.rows⟩, commasUnless last⟩

theorem punctuated?_rowLine {row : Row} (worded : RowWorded row) (last : Bool) :
    punctuated? row? (rowLine last row) = some (rowImage last row) := by
  have found : row? (rowLine last row) = some (readingOf row) := by
    rw [rowLine_eq]
    exact row?_line _ rfl worded.entries _ _ worded.name
  refine punctuated?_eq_some _ _ _ found (rowStart ++ (commaList (readingOf row).entries ++ (", " ++
    (row.signal.getD nullReference ++ " " ++ devicePointer row ++ " " ++ interruptPointer row))))
    _ worded.name last ?_
  rw [rowLine_eq, rowEnding]
  simp only [String.append_assoc]

theorem punctuated?_headingLine {group : GroupTable}
    (worded : ∀ row ∈ group.rows, RowWorded row) :
    punctuated? heading? (headingLine group) = some ⟨headingOf group, 1⟩ := by
  have found : heading? (headingLine group) = some (headingOf group) :=
    heading?_line _ (List.cons_ne_nil _ _) (headingOf_entries worded) _ _ (word_kindName _)
  refine punctuated?_eq_some _ _ _ found (headingStart ++ commaList (headingOf group).entries)
    _ (word_kindName group.kind) false ?_
  rw [headingLine]
  simp only [String.append_assoc]
  rfl

/-- A group that is written is read with its commas. -/
theorem initialGroup?_groupLines {group : GroupTable}
    (worded : ∀ row ∈ group.rows, RowWorded row) (last : Bool) :
    initialGroup? (groupLines last group) = some (groupImage last group) := by
  have rows : (mapLast rowLine group.rows).mapM (punctuated? row?) =
      some (mapLast rowImage group.rows) :=
    mapM_mapLast _ _ _ _ fun last row member => punctuated?_rowLine (worded row member) last
  rw [groupLines_eq, List.append_assoc, List.singleton_append]
  simp only [initialGroup?, punctuated?_headingLine worded, List.dropLast_concat, rows,
    List.getLast?_concat, after?_append, commas?_commaUnless, Option.bind_eq_bind,
    Option.bind_some]
  rfl

/-- The groups of a table are read from the source with their rows and commas. -/
theorem initialGroupsAfter?_deviceSource (worded : TableWorded table) :
    initialGroupsAfter? (baseLine table.base) (textOf (deviceSource table)) =
      some (mapLast groupImage table.groups) := by
  let front := table.groups.flatMap groupDefinitions ++
    sectionComment (table.title ++ " IO configuration structure")
  let behind := groupListLines table ++ (topLines table ++
    (headsSection table (headDefinition table.base) ++ [""]))
  have lines : linesIn (textOf (deviceSource table)) = front ++ baseLine table.base ::
      (aggregate (mapLast groupLines table.groups) "\x7d;" ++ behind) := by
    rw [linesIn_textOf _ (deviceSource_unbroken worded), deviceSource, tableLines_eq]
    simp only [List.append_assoc, front, behind]
    rfl
  -- No line in front of the definition of the table starts as that does.
  have fresh : baseLine table.base ∉ front := by
    have start := baseLine_start table.base
    intro member
    rcases List.mem_append.1 member with isDefinition | isComment
    · exact definitions_start table 'O' (by decide) _ isDefinition start
    · exact sectionComment_start _ 'O' (by decide) _ isComment start
  have indented : ∀ part ∈ mapLast groupLines table.groups, ∀ line ∈ part,
      line.toList.head? = some ' ' :=
    forall_mem_mapLast _ _ _ fun last group _ => groupLines_start last group
  have groups : (mapLast groupLines table.groups).mapM initialGroup? =
      some (mapLast groupImage table.groups) :=
    mapM_mapLast _ _ _ _ fun last group member =>
      initialGroup?_groupLines (worded.rows group member) last
  have body := aggregate?_linesAfter lines fresh rfl indented
  simp only [initialGroupsAfter?, body, groups, Option.bind_eq_bind, Option.bind_some]

def groupReference (base : String) (group : GroupTable) : String :=
  "&" ++ base ++ "." ++ group.kind.name ++ ".hdr"

theorem word_groupReference (base : String) (word : Word base) (group : GroupTable) :
    Word (groupReference base group) := by
  simp only [groupReference, word_append]
  exact ⟨⟨⟨⟨by decide, word⟩, by decide⟩, word_kindName _⟩, by decide⟩

theorem groupEntry_eq (base : String) (last : Bool) (group : GroupTable) :
    groupEntry base last group =
      " " ++ (" " ++ (groupReference base group ++ commaUnless last)) := by
  have start : "  &" = " " ++ (" " ++ "&") := rfl
  rw [groupEntry, groupReference, start]
  simp only [String.append_assoc]

/-- The entries are separated as they are read: one comma between two of them, none at the end. -/
theorem entriesIn_groupEntries (base : String) (word : Word base) (groups : List GroupTable)
    (nonempty : groups ≠ []) :
    entriesIn (String.join (mapLast (groupEntry base) groups)) =
      groups.map (groupReference base) := by
  fun_induction mapLast (groupEntry base) groups with
  | case1 => exact absurd rfl nonempty
  | case2 group =>
      rw [String.join_cons, String.join_nil, String.append_empty, groupEntry_eq, entriesIn_blank,
        entriesIn_blank, commaUnless, if_pos rfl, String.append_empty,
        entriesIn_word _ (word_groupReference base word group)]
      rfl
  | case3 group next rest ih =>
      rw [String.join_cons, groupEntry_eq, String.append_assoc, String.append_assoc,
        String.append_assoc, entriesIn_blank, entriesIn_blank, commaUnless,
        if_neg Bool.false_ne_true, entriesIn_comma _ _ (word_groupReference base word group),
        ih (List.cons_ne_nil _ _)]
      rfl

/-- The list of groups as an aggregate, whose empty line stands between two parts without lines. -/
def groupEntries (table : DeviceTable) : List (List String) :=
  if table.groups.isEmpty then [[], []] else [mapLast (groupEntry table.base) table.groups]

theorem aggregate_groupEntries (table : DeviceTable) :
    aggregate (groupEntries table) "\x7d;" = "\x7b" :: ((if table.groups.isEmpty then [""]
      else mapLast (groupEntry table.base) table.groups) ++ ["\x7d;"]) := by
  unfold groupEntries
  split
  · rfl
  · simp only [aggregate, List.intercalate_singleton, List.cons_append, List.nil_append]

theorem groupListLines_eq (table : DeviceTable) :
    groupListLines table = sectionComment "List of pin type groups" ++
      groupListLine table.base :: aggregate (groupEntries table) "\x7d;" := by
  rw [aggregate_groupEntries, groupListLines, List.append_assoc, List.append_assoc]
  rfl

def groupListStart : String := "static OS_FLASH_MEM PinGroupHdr * OS_FLASH_MEM "

/-- The arrays in front of a table are of settings, not of groups. -/
theorem after?_definitions (table : DeviceTable) :
    ∀ line ∈ table.groups.flatMap groupDefinitions, after? groupListStart line = none := by
  intro line member
  obtain ⟨group, _, isLine⟩ := List.mem_flatMap.1 member
  refine forall_mem_groupDefinitions (fun line => after? groupListStart line = none) group
    ?comment ?array ?interrupt line isLine
  case comment =>
    intro line isComment
    exact after?_eq_none _ line 's' rfl (sectionComment_start _ 's' (by decide) line isComment)
  case array =>
    intro row _
    unfold arrayLine
    simp only [String.append_assoc]
    exact after?_append_eq_none _ _ _ (by decide) (by decide)
  case interrupt =>
    intro row _
    unfold interruptLine
    simp only [String.append_assoc]
    exact after?_append_eq_none _ _ _ (by decide) (by decide)

theorem groupListLine_eq (base : String) :
    groupListLine base = groupListStart ++ (groupListSymbol base ++ "[] =") := by
  unfold groupListLine groupListStart
  rw [String.append_assoc]

theorem groupListLine_start (base : String) :
    (groupListLine base).toList.head? = some 's' := by
  rw [groupListLine_eq]
  exact head?_append_of_head? _ _ 's' rfl

theorem groupListLine_not_mem_definitions (table : DeviceTable) :
    groupListLine table.base ∉ table.groups.flatMap groupDefinitions := by
  intro member
  have found := after?_definitions table _ member
  rw [groupListLine_eq, after?_append] at found
  cases found

theorem groupListLine_not_mem_tableLines (table : DeviceTable) :
    groupListLine table.base ∉ tableLines table := fun member =>
  tableLines_start table 's' (by decide) _ member (groupListLine_start table.base)

/-- The list of groups is read from the source. -/
theorem arrayAfter?_deviceSource (worded : TableWorded table) :
    arrayAfter? (groupListLine table.base) (textOf (deviceSource table)) =
      some (table.groups.map (groupReference table.base)) := by
  let front := table.groups.flatMap groupDefinitions ++
    (tableLines table ++ sectionComment "List of pin type groups")
  let behind := topLines table ++ (headsSection table (headDefinition table.base) ++ [""])
  have lines : linesIn (textOf (deviceSource table)) = front ++ groupListLine table.base ::
      (aggregate (groupEntries table) "\x7d;" ++ behind) := by
    rw [linesIn_textOf _ (deviceSource_unbroken worded), deviceSource, groupListLines_eq]
    simp only [List.append_assoc, front, behind]
    rfl
  have fresh : groupListLine table.base ∉ front := by
    simp only [front, List.mem_append, not_or]
    exact ⟨groupListLine_not_mem_definitions table, groupListLine_not_mem_tableLines table,
      fun member => sectionComment_start _ 's' (by decide) _ member (groupListLine_start _)⟩
  have indented : ∀ part ∈ groupEntries table, ∀ line ∈ part,
      line.toList.head? = some ' ' := by
    unfold groupEntries
    split
    · decide
    · intro part isPart
      rw [List.mem_singleton.1 isPart]
      apply forall_mem_mapLast
      intro last group _
      rw [groupEntry_eq]
      exact head?_append_of_head? _ _ ' ' rfl
  have body := aggregate?_linesAfter lines fresh rfl indented
  simp only [arrayAfter?, body, groupEntries, Option.bind_eq_bind, Option.bind_some]
  split
  · next none =>
      rw [List.isEmpty_iff.1 none]
      rfl
  · next some =>
      rw [List.isEmpty_iff] at some
      have nonempty : mapLast (groupEntry table.base) table.groups ≠ [] := by
        rw [← List.length_pos_iff, length_mapLast, List.length_pos_iff]
        exact some
      rw [List.flatten_singleton, List.isEmpty_eq_false_iff.2 nonempty, if_neg Bool.false_ne_true,
        entriesIn_groupEntries _ worded.base _ some]
      rfl

end PinTable.Listing
