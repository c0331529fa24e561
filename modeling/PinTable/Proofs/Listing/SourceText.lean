import PinTable.Proofs.Listing.BusRecords
import PinTable.Proofs.Listing.Objects
import PinTable.Proofs.Listing.TagLists

set_option autoImplicit false

namespace PinTable.Listing

open Reading

theorem ne_equals_of_mem (text : String) (member : '_' ∈ text.toList) : text ≠ "=" := by
  rintro rfl
  exact absurd member (by decide)

theorem ne_equals_of_isIdentifier (text : String) (identifier : isIdentifier text = true) :
    text ≠ "=" := by
  rintro rfl
  cases identifier

theorem definedBy?_static (rest : String) : definedBy? ("static" ++ (" " ++ rest)) = none := by
  have first : (wordsIn ("static" ++ (" " ++ rest))).head? = some "static" := by
    rw [wordsIn_append _ _ (by decide)]
    rfl
  rw [definedBy?, if_neg fun both => both.2 first]

/-- The use of a macro has no result, and so is no function. -/
theorem definedBy?_macro (name argument : String) (isName : Word name) (isArgument : Word argument)
    (unopened : '(' ∉ name.toList) : definedBy? (name ++ ("(" ++ (argument ++ ")"))) = none := by
  have word : Word (name ++ ("(" ++ (argument ++ ")"))) := by
    simp only [word_append]
    exact ⟨isName, by decide, isArgument, by decide⟩
  have plain : name ++ ("(" ++ (argument ++ ")")) ≠ "=" := by
    intro same
    have bracket : '(' ∈ (name ++ ("(" ++ (argument ++ ")"))).toList := by
      simp [String.toList_append]
    rw [same] at bracket
    exact absurd bracket (by decide)
  have uncalled : function? "" (name ++ ("(" ++ (argument ++ ")"))) = none := by
    have text : name ++ ("(" ++ (argument ++ ")")) = name ++ ("(" ++ argument) ++ (")" ++ "") := by
      rw [String.append_empty]
      simp only [String.append_assoc]
    have front : upTo '(' (name ++ ("(" ++ argument)) = name :=
      upTo_append '(' _ _ unopened (by rw [String.toList_append]; rfl)
    have behind : after? (name ++ "(") (name ++ ("(" ++ argument)) = some argument := by
      rw [← String.append_assoc, after?_append]
    simp only [function?, text, before?_append, front, behind, wordsIn_word name isName,
      Option.bind_eq_bind, Option.bind_some]
    rfl
  have absent : "=" ∉ wordsIn (name ++ ("(" ++ (argument ++ ")"))) := by
    rw [wordsIn_word _ word, List.mem_singleton]
    exact plain.symm
  rw [definedBy?, if_neg absent, uncalled, ite_self]

section Table

variable {table : DeviceTable}

theorem definitions_groupDefinitions {group : GroupTable}
    (worded : ∀ row ∈ group.rows, RowWorded row) :
    (groupDefinitions group).filterMap definedBy? = [] := by
  rw [List.filterMap_eq_nil_iff]
  apply forall_mem_groupDefinitions
  case comment =>
    exact List.filterMap_eq_nil_iff.1 (filterMap_definedBy?_eq_nil _ (sectionComment_inner _))
  case array =>
    intro row _
    have start : "static os_ushort " = "static" ++ (" " ++ "os_ushort ") := by decide
    unfold arrayLine
    simp only [start, String.append_assoc]
    exact definedBy?_static _
  case interrupt =>
    intro row isRow
    have symbol : Word row.pin.interruptSymbol := by
      simp only [QualifiedPin.interruptSymbol, word_append]
      exact ⟨⟨⟨(worded row isRow).base, by decide⟩, (worded row isRow).name⟩, by decide⟩
    have start : "PINS_INTCONF_STRUCT(" = "PINS_INTCONF_STRUCT" ++ "(" := by decide
    unfold interruptLine
    simp only [start, String.append_assoc]
    exact definedBy?_macro _ _ (by decide) symbol (by decide)

theorem definitions_tableLines (worded : TableWorded table) (plain : table.base ≠ "=") :
    (tableLines table).filterMap definedBy? = [Category.pins.declaration table.base] := by
  have line : baseLine table.base =
      Category.pins.definitionLine sourceStorage table.base "=" := by
    have type : "_t " = "_t" ++ " " := rfl
    have storage : "OS_FLASH_MEM " = "OS_FLASH_MEM" ++ " " := by decide
    have value : " =" = " " ++ "=" := rfl
    unfold baseLine
    simp only [Category.definitionLine, Category.typeOf, Category.star, sourceStorage, spaced,
      List.cons_append, List.nil_append, List.foldr_cons, List.foldr_nil, type, storage, value,
      String.append_assoc, String.empty_append]
  have base : definedBy? (baseLine table.base) = some (Category.pins.declaration table.base) := by
    rw [line]
    refine Category.pins.definedBy?_definitionLine sourceStorage sourceStorage_stored _ worded.base
      plain "=" ?_ rfl
    rw [← line]
    unfold baseLine
    simp only [String.append_assoc]
    rw [atFileScope_append 'O' _ _ rfl]
    rfl
  have inside : ∀ line ∈ aggregate (mapLast groupLines table.groups) "\x7d;",
      atFileScope line = false := by
    apply forall_mem_aggregate (fun line => atFileScope line = false) _ _ rfl rfl rfl rfl
    apply forall_mem_mapLast
    intro last group _ line isLine
    exact atFileScope_eq_false line ' ' (groupLines_start last group line isLine) rfl
  rw [tableLines_eq, List.filterMap_append, List.filterMap_append,
    filterMap_definedBy?_eq_nil _ (sectionComment_inner _), List.filterMap_cons_some base,
    filterMap_definedBy?_eq_nil _ inside]
  rfl

theorem definitions_groupListLines (table : DeviceTable) :
    (groupListLines table).filterMap definedBy? = [] := by
  rw [List.filterMap_eq_nil_iff]
  apply forall_mem_groupListLines
  case comment =>
    exact List.filterMap_eq_nil_iff.1 (filterMap_definedBy?_eq_nil _ (sectionComment_inner _))
  case opening =>
    have start : "static OS_FLASH_MEM PinGroupHdr * OS_FLASH_MEM " =
        "static" ++ (" " ++ "OS_FLASH_MEM PinGroupHdr * OS_FLASH_MEM ") := by decide
    unfold groupListLine
    simp only [start, String.append_assoc]
    exact definedBy?_static _
  case brace => rfl
  case none => rfl
  case entries =>
    intro last group _
    have inner : atFileScope (groupEntry table.base last group) = false := by
      unfold groupEntry
      simp only [String.append_assoc]
      rw [atFileScope_append ' ' _ _ rfl]
      rfl
    rw [definedBy?, inner, if_neg fun both => Bool.false_ne_true both.1]
  case closing => rfl

/-- A value of an object stands behind the equals sign and a blank. -/
theorem wordsIn_value (value : String) : (wordsIn ("=" ++ (" " ++ value))).head? = some "=" := by
  rw [wordsIn_append _ _ (by decide)]
  rfl

theorem definitions_topLines (worded : TableWorded table) :
    (topLines table).filterMap definedBy? = [Category.top.declaration (table.base ++ "_hdr")] := by
  let value := braced (groupListSymbol table.base ++ ", sizeof(" ++ groupListSymbol table.base ++
    ")/sizeof(PinGroupHdr*)") ++ ";"
  have symbol : Word (table.base ++ "_hdr") := (word_append _ _).2 ⟨worded.base, by decide⟩
  have plain : table.base ++ "_hdr" ≠ "=" :=
    ne_equals_of_mem _ (by rw [String.toList_append]; exact List.mem_append_right _ (by decide))
  have line : topLine table.base = Category.top.definitionLine sourceStorage
      (table.base ++ "_hdr") ("=" ++ (" " ++ value)) := by
    have storage : "OS_FLASH_MEM IoPinsHdr " = "OS_FLASH_MEM" ++ (" " ++ ("IoPinsHdr" ++ " ")) := by
      decide
    have equals : "_hdr = " = "_hdr" ++ (" " ++ ("=" ++ " ")) := rfl
    unfold topLine
    simp only [Category.definitionLine, Category.typeOf, Category.star, sourceStorage, spaced,
      List.cons_append, List.nil_append, List.foldr_cons, List.foldr_nil, storage, equals, value,
      String.append_assoc, String.empty_append]
  have outer : atFileScope (topLine table.base) = true := by
    unfold topLine
    simp only [String.append_assoc]
    rw [atFileScope_append 'O' _ _ rfl]
    rfl
  have top : definedBy? (topLine table.base) =
      some (Category.top.declaration (table.base ++ "_hdr")) := by
    rw [line] at outer ⊢
    exact Category.top.definedBy?_definitionLine sourceStorage sourceStorage_stored _ symbol plain
      _ outer (wordsIn_value value)
  rw [topLines_eq, List.filterMap_append, filterMap_definedBy?_eq_nil _ (sectionComment_inner _),
    List.filterMap_cons_some top]
  rfl

theorem definitions_headsSection (worded : TableWorded table) :
    (headsSection table (headDefinition table.base)).filterMap definedBy? =
      table.tags.headPins.map fun head =>
        Category.head.declaration (tagSymbol table.base head.1) := by
  have line : ∀ head : String × QualifiedPin, headDefinition table.base head =
      Category.head.definitionLine sourceStorage (tagSymbol table.base head.1)
        ("=" ++ (" " ++ (head.2.address ++ ";"))) := by
    intro head
    have storage : headStart =
        "OS_FLASH_MEM" ++ (" " ++ ("Pin" ++ (" " ++ "*"))) := by decide
    have equals : " = " = " " ++ ("=" ++ " ") := rfl
    rw [headDefinition_eq, storage, equals]
    simp only [Category.definitionLine, Category.typeOf, Category.star, sourceStorage, spaced,
      List.cons_append, List.nil_append, List.foldr_cons, List.foldr_nil, String.append_assoc]
  apply filterMap_headsSection
  case comment => exact filterMap_definedBy?_eq_nil _ (sectionComment_inner _)
  case heads =>
    intro head member
    have symbol := word_tagSymbol _ _ worded.base (worded.tags head member)
    have plain : tagSymbol table.base head.1 ≠ "=" :=
      ne_equals_of_mem _ (by simp [tagSymbol, String.toList_append])
    have outer : atFileScope (headDefinition table.base head) = true := by
      rw [headDefinition_eq, atFileScope_append 'O' _ _ rfl]
      rfl
    rw [line] at outer ⊢
    exact Category.head.definedBy?_definitionLine sourceStorage sourceStorage_stored _ symbol plain
      _ outer (wordsIn_value _)

theorem definitions_deviceSource (worded : TableWorded table) (plain : table.base ≠ "=") :
    (deviceSource table).filterMap definedBy? =
      [Category.pins.declaration table.base, Category.top.declaration (table.base ++ "_hdr")] ++
        table.tags.headPins.map fun head =>
          Category.head.declaration (tagSymbol table.base head.1) := by
  have groups : (table.groups.flatMap groupDefinitions).filterMap definedBy? = [] := by
    rw [List.filterMap_flatMap, List.flatMap_eq_nil_iff]
    exact fun group isGroup => definitions_groupDefinitions (worded.rows group isGroup)
  simp only [deviceSource, List.filterMap_append, groups, definitions_tableLines worded plain,
    definitions_groupListLines, definitions_topLines worded, definitions_headsSection worded,
    List.nil_append, List.append_nil]
  rfl

/-- The chips have no records among the lines of devices. -/
theorem records_deviceSource (table : DeviceTable) :
    (deviceSource table).filterMap (record? "PinsBusDevice") = [] := by
  have none : ∀ lines : List String, (∀ line ∈ lines, line.toList.head? ≠ some 'P') →
      lines.filterMap (record? "PinsBusDevice") = [] :=
    fun lines others => filterMap_record?_eq_nil _ lines 'P' rfl others
  have groups : (table.groups.flatMap groupDefinitions).filterMap (record? "PinsBusDevice") = [] := by
    rw [List.filterMap_flatMap, List.flatMap_eq_nil_iff]
    intro group _
    rw [List.filterMap_eq_nil_iff]
    apply forall_mem_groupDefinitions
    case comment =>
      exact List.filterMap_eq_nil_iff.1 (none _ (sectionComment_start _ 'P' (by decide)))
    case array =>
      intro row _
      unfold arrayLine
      simp only [String.append_assoc]
      exact record?_eq_none _ _ (after?_append_eq_none _ _ _ (by decide) (by decide))
    case interrupt =>
      intro row _
      unfold interruptLine
      simp only [String.append_assoc]
      exact record?_eq_none _ _ (after?_append_eq_none _ _ _ (by decide) (by decide))
  rw [deviceSource]
  simp only [List.filterMap_append]
  rw [groups, none _ (tableLines_start table 'P' (by decide)),
    none _ (groupListLines_start table 'P' (by decide)),
    none _ (topLines_start table 'P' (by decide)),
    none _ (headsSection_start table 'P' (by decide))]
  rfl

end Table

section Wiring

variable {wiring : Wiring}

/-- Records that are defined one a line are read in their order. -/
theorem definitions_records (category : Category) (type : String)
    (isType : ∀ symbol, category.typeOf symbol = type) (unstarred : category.star = "")
    (starts : type.toList.head? = some 'P') (records : List SourceRecord)
    (words : ∀ record ∈ records, Word record.symbol ∧ '_' ∈ record.symbol.toList) :
    (records.map (recordLine type)).filterMap definedBy? =
      (records.map SourceRecord.symbol).map category.declaration := by
  rw [List.map_map]
  apply filterMap_written
  intro record member
  obtain ⟨symbol, underscore⟩ := words record member
  let value := braced (commaList record.entries) ++ ";"
  have line : recordLine type record =
      category.definitionLine [] record.symbol ("=" ++ (" " ++ value)) := by
    have equals : " = " = " " ++ ("=" ++ " ") := rfl
    simp only [recordLine, Category.definitionLine, isType, unstarred, spaced, List.nil_append,
      List.foldr_cons, List.foldr_nil, equals, value, String.append_assoc, String.empty_append]
  have outer : atFileScope (recordLine type record) = true := by
    rw [recordLine, String.append_assoc, atFileScope_append 'P' _ _ starts]
    rfl
  rw [line] at outer ⊢
  exact category.definedBy?_definitionLine [] (fun _ none => absurd none List.not_mem_nil) _ symbol
    (ne_equals_of_mem _ underscore) _ outer (wordsIn_value value)

theorem definitions_initializerLines (wiring : Wiring) :
    (initializerLines wiring).filterMap definedBy? = [initializer] := by
  have opening : ["void " ++ initializerSymbol ++ "(void)", "\x7b"].filterMap definedBy? =
      [initializer] := by decide +kernel
  have closing : ["\x7d"].filterMap definedBy? = [] := by decide
  have indented : ∀ lines : List String, (∀ line ∈ lines, line.toList.head? = some ' ') →
      lines.filterMap definedBy? = [] := fun lines starts =>
    filterMap_definedBy?_eq_nil _ fun line member =>
      atFileScope_eq_false line ' ' (starts line member) rfl
  have buses : (wiring.buses.map busCall).filterMap definedBy? = [] := by
    refine indented _ (List.forall_mem_map.2 fun bus _ => ?_)
    unfold busCall
    simp only [String.append_assoc]
    exact head?_append_of_head? _ _ ' ' rfl
  have drivers : (wiring.drivers.map driverCall).filterMap definedBy? = [] := by
    refine indented _ (List.forall_mem_map.2 fun driver _ => ?_)
    unfold driverCall
    simp only [String.append_assoc]
    exact head?_append_of_head? _ _ ' ' rfl
  have chips : (wiring.chips.map chipCall).filterMap definedBy? = [] := by
    refine indented _ (List.forall_mem_map.2 fun chip _ => ?_)
    unfold chipCall
    simp only [String.append_assoc]
    exact head?_append_of_head? _ _ ' ' rfl
  simp only [initializerLines, List.filterMap_append, opening, buses, drivers, chips, closing,
    List.append_nil]

theorem definitions_busSource (worded : Worded wiring) :
    (busSource wiring).filterMap definedBy? = wiringObjects wiring ++ [initializer] := by
  have comment : ∀ title, (sectionComment title).filterMap definedBy? = [] :=
    fun title => filterMap_definedBy?_eq_nil _ (sectionComment_inner title)
  have condition : ["", busCondition].filterMap definedBy? = [] := by decide
  have buses : ((busRecords wiring).map (recordLine "PinsBus")).filterMap definedBy? =
      wiring.buses.map fun bus => Category.bus.declaration bus.symbol := by
    have words : ∀ record ∈ busRecords wiring,
        Word record.symbol ∧ '_' ∈ record.symbol.toList := by
      intro record member
      obtain ⟨position, inside, rfl⟩ := List.mem_mapIdx.1 member
      refine ⟨worded.buses _ (List.getElem_mem inside), ?_⟩
      simp [busRecord, Bus.symbol, BusId.symbol, String.toList_append]
    rw [definitions_records .bus "PinsBus" (fun _ => rfl) rfl rfl _ words, map_symbol_busRecords,
      List.map_map]
    rfl
  have main : ([mainRecord wiring].map (recordLine "PinsDeviceBus")).filterMap definedBy? =
      [Category.main.declaration deviceBusSymbol] := by
    have underscore : '_' ∈ deviceBusSymbol.toList := by decide
    exact definitions_records .main "PinsDeviceBus" (fun _ => rfl) rfl rfl _
      (List.forall_mem_singleton.2 ⟨worded.mainRecord.symbol, underscore⟩)
  have chips : ((chipRecords wiring).map (recordLine "PinsBusDevice")).filterMap definedBy? =
      wiring.chips.map fun chip => Category.chip.declaration chip.symbol := by
    have words : ∀ record ∈ chipRecords wiring,
        Word record.symbol ∧ '_' ∈ record.symbol.toList := by
      intro record member
      obtain ⟨chip, isChip, rfl⟩ := List.mem_map.1 member
      refine ⟨worded.symbols chip isChip, ?_⟩
      simp [chipRecord, Chip.symbol, QualifiedPin.busDeviceSymbol, String.toList_append]
    rw [definitions_records .chip "PinsBusDevice" (fun _ => rfl) rfl rfl _ words, map_symbol_chipRecords,
      List.map_map]
    rfl
  have last : ["#endif"].filterMap definedBy? = [] := by decide
  rw [busSource_eq]
  simp only [List.filterMap_append, comment, condition, buses, main, chips, last,
    definitions_initializerLines, List.nil_append, List.append_nil]
  rfl

end Wiring

end PinTable.Listing
