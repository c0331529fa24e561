import PinTable.Proofs.Listing.BusRecords
import PinTable.Proofs.Listing.LayoutText
import PinTable.Proofs.Listing.Objects
import PinTable.Proofs.Listing.TagLists

set_option autoImplicit false

namespace PinTable.Listing

open Reading

section Table

variable {table : DeviceTable}

theorem declarations_typeLines (worded : TableWorded table) :
    (typeLines table).filterMap declaredBy? = [] := by
  have opening : declaredBy? "typedef struct" = none := by decide +kernel
  have inside : ∀ line ∈ aggregate (table.groups.map structLines) "\x7d",
      atFileScope line = false := by
    apply forall_mem_aggregate (fun line => atFileScope line = false) _ _ rfl rfl rfl rfl
    refine List.forall_mem_map.2 fun group _ line isLine => ?_
    exact atFileScope_eq_false line ' ' (structLines_start group line isLine) rfl
  -- The name of the type stands alone, so it is neither an object nor a function.
  have name : declaredBy? (table.base ++ "_t;") = none := by
    have unexported : after? "extern " (table.base ++ "_t;") = none := by
      cases found : after? "extern " (table.base ++ "_t;") with
      | none => rfl
      | some rest =>
          have blank : ' ' ∈ (table.base ++ "_t;").toList := by
            rw [eq_append_of_after? _ _ _ found, String.toList_append]
            exact List.mem_append_left _ (by decide)
          rw [String.toList_append, List.mem_append] at blank
          rcases blank with inBase | inType
          · exact absurd inBase (worded.base.not_mem ' ' rfl)
          · exact absurd inType (by decide)
    have uncalled : function? ";" (table.base ++ "_t;") = none :=
      function?_eq_none _ _ (before?_append_eq_none _ _ _ (by decide) (by decide))
    rw [declaredBy?, unexported, uncalled, ite_self]
  rw [typeLines, List.filterMap_append, List.filterMap_append, List.filterMap_append,
    filterMap_declaredBy?_eq_nil _ (sectionComment_inner _), List.filterMap_cons_none opening,
    filterMap_declaredBy?_eq_nil _ inside, List.filterMap_cons_none name]
  rfl

theorem declarationLines_eq (table : DeviceTable) :
    declarationLines table =
      sectionComment (table.title ++ " IO configuration top header structure") ++
        [Category.top.declarationLine headerStorage (table.base ++ "_hdr")] ++
        sectionComment ("Global " ++ table.title ++ " IO configuration structure") ++
        [Category.pins.declarationLine headerStorage table.base] := by
  have header : "_hdr;" = "_hdr" ++ ";" := rfl
  have type : "_t " = "_t" ++ " " := rfl
  have top : "extern OS_FLASH_MEM_H IoPinsHdr " =
      "extern " ++ ("OS_FLASH_MEM_H" ++ (" " ++ ("IoPinsHdr" ++ " "))) := by decide
  have pins : "extern OS_FLASH_MEM_H " = "extern " ++ ("OS_FLASH_MEM_H" ++ " ") := by decide
  simp only [declarationLines, Category.declarationLine, Category.typeOf, Category.star, headerStorage,
    spaced, List.cons_append, List.nil_append, List.foldr_cons, List.foldr_nil, header, type, top,
    pins, String.append_assoc, String.empty_append]

theorem declarations_declarationLines (worded : TableWorded table) :
    (declarationLines table).filterMap declaredBy? =
      [Category.top.declaration (table.base ++ "_hdr"), Category.pins.declaration table.base] := by
  have header : Word (table.base ++ "_hdr") := (word_append _ _).2 ⟨worded.base, by decide⟩
  have top := Category.top.declaredBy?_declarationLine headerStorage headerStorage_stored _ header
  have pins := Category.pins.declaredBy?_declarationLine headerStorage headerStorage_stored _ worded.base
  rw [declarationLines_eq, List.filterMap_append, List.filterMap_append, List.filterMap_append,
    filterMap_declaredBy?_eq_nil _ (sectionComment_inner _), List.filterMap_cons_some top,
    filterMap_declaredBy?_eq_nil _ (sectionComment_inner _), List.filterMap_cons_some pins]
  rfl

theorem headDeclaration_eq (base : String) (head : String × QualifiedPin) :
    headDeclaration base head =
      Category.head.declarationLine headerStorage (tagSymbol base head.1) := by
  have start : "extern OS_FLASH_MEM_H Pin *" =
      "extern " ++ ("OS_FLASH_MEM_H" ++ (" " ++ ("Pin" ++ (" " ++ "*")))) := by decide
  unfold headDeclaration
  simp only [Category.declarationLine, Category.typeOf, Category.star, headerStorage,
    spaced, List.cons_append, List.nil_append, List.foldr_cons, List.foldr_nil, start,
    String.append_assoc]

theorem declarations_headsSection (worded : TableWorded table) :
    (headsSection table (headDeclaration table.base)).filterMap declaredBy? =
      table.tags.headPins.map fun head =>
        Category.head.declaration (tagSymbol table.base head.1) := by
  apply filterMap_headsSection
  case comment => exact filterMap_declaredBy?_eq_nil _ (sectionComment_inner _)
  case heads =>
    intro head member
    have symbol := word_tagSymbol _ _ worded.base (worded.tags head member)
    rw [headDeclaration_eq]
    exact Category.head.declaredBy?_declarationLine headerStorage headerStorage_stored _ symbol

theorem declarations_constantLines (table : DeviceTable) :
    (constantLines table).filterMap declaredBy? = [] := by
  apply filterMap_declaredBy?_eq_nil
  simp only [constantLines, List.forall_mem_append]
  refine ⟨sectionComment_inner _, List.forall_mem_map.2 fun constant _ => ?_⟩
  simp only [NameConstant.text, String.append_assoc]
  rw [atFileScope_append '#' _ _ rfl]
  rfl

theorem declarations_deviceHeader (worded : TableWorded table) :
    (deviceHeader table).filterMap declaredBy? =
      [Category.top.declaration (table.base ++ "_hdr"), Category.pins.declaration table.base] ++
        table.tags.headPins.map fun head =>
          Category.head.declaration (tagSymbol table.base head.1) := by
  rw [deviceHeader, List.filterMap_append, List.filterMap_append, List.filterMap_append,
    declarations_typeLines worded, declarations_declarationLines worded,
    declarations_headsSection worded, declarations_constantLines, List.nil_append, List.append_nil]

theorem declarationLines_unbroken (worded : TableWorded table) :
    ∀ line ∈ declarationLines table, Unbroken line := by
  have symbol : Word (table.base ++ "_hdr") := (word_append _ _).2 ⟨worded.base, by decide⟩
  have top := Category.top.unbroken_declarationLine headerStorage headerStorage_stored _ symbol
  have pins :=
    Category.pins.unbroken_declarationLine headerStorage headerStorage_stored _ worded.base
  have topTitle : Unbroken (table.title ++ " IO configuration top header structure") :=
    (unbroken_append _ _).2 ⟨worded.title, by decide⟩
  have pinsTitle : Unbroken ("Global " ++ table.title ++ " IO configuration structure") := by
    simp only [unbroken_append]
    exact ⟨⟨by decide, worded.title⟩, by decide⟩
  rw [declarationLines_eq]
  simp only [List.forall_mem_append, List.forall_mem_singleton]
  exact ⟨⟨⟨sectionComment_unbroken _ topTitle, top⟩, sectionComment_unbroken _ pinsTitle⟩, pins⟩

theorem headDeclarations_unbroken (worded : TableWorded table) :
    ∀ line ∈ headsSection table (headDeclaration table.base), Unbroken line := by
  apply forall_mem_headsSection
  case comment => exact sectionComment_unbroken _ (by decide)
  case heads =>
    intro head member
    rw [headDeclaration_eq]
    exact Category.head.unbroken_declarationLine headerStorage headerStorage_stored _
      (word_tagSymbol _ _ worded.base (worded.tags head member))

theorem deviceHeader_unbroken (worded : TableWorded table)
    (constants : ∀ constant ∈ table.constants, Unbroken constant.text) :
    ∀ line ∈ deviceHeader table, Unbroken line := by
  rw [deviceHeader]
  simp only [constantLines, List.forall_mem_append]
  exact ⟨⟨⟨typeLines_unbroken worded, declarationLines_unbroken worded⟩,
    headDeclarations_unbroken worded⟩,
    sectionComment_unbroken _ (by decide), List.forall_mem_map.2 constants⟩

end Table

section Device

variable {signals : SignalIndex} {device : Device}

theorem constant_unbroken (symbol value : String) (isSymbol : isIdentifier symbol = true)
    (isValue : isIdentifier value = true) :
    Unbroken (NameConstant.text ⟨uppercase symbol, value⟩) := by
  simp only [NameConstant.text, unbroken_append]
  exact ⟨⟨⟨⟨by decide, unbroken_uppercase _ isSymbol⟩, by decide⟩,
    (word_of_isIdentifier _ isValue).unbroken⟩, by decide⟩

theorem isIdentifier_joined (pin : QualifiedPin) (base : isIdentifier pin.base = true)
    (name : isIdentifier pin.name = true) : isIdentifier pin.joined = true := by
  have kind : pin.kind.name.toList.all isIdentifierChar = true := by
    cases pin.kind <;> decide
  have front := isIdentifier_append _ "_" base (by decide)
  have both := isIdentifier_append _ "_" (isIdentifier_append _ _ front kind) (by decide)
  exact isIdentifier_append _ _ both (all_isIdentifierChar _ name)

/-- The constants of pins and tags with identifiers for names are of one line. -/
theorem constants_unbroken (named : DeviceNamed signals device) :
    ∀ constant ∈ (DeviceTable.ofDevice signals device).constants, Unbroken constant.text := by
  intro constant member
  obtain ⟨row, inTable, isConstant⟩ := List.mem_flatMap.1 member
  obtain ⟨table, isTable, isRow⟩ := List.mem_flatMap.1 inTable
  obtain ⟨group, isGroup, _, made⟩ :=
    DeviceTable.exists_group_of_mem_groupsOf _ _ _ _ table isTable
  obtain ⟨pin, isPin, linked, rfl⟩ := made row isRow
  have names := named.pins group isGroup pin isPin
  have ofPin : Unbroken (NameConstant.ofPin ⟨device.base, group.kind, pin.name⟩).text :=
    constant_unbroken _ _ (isIdentifier_joined _ named.base names.name) names.name
  rw [Row.constants] at isConstant
  split at isConstant
  · rw [List.mem_singleton.1 isConstant]
    exact ofPin
  · next tag isTag =>
      have tagged : isIdentifier tag = true := by
        apply names.tag
        simp only [DeviceTable.rowOf] at isTag
        split at isTag
        · exact isTag
        · cases isTag
      have front := isIdentifier_append _ "_" named.base (by decide)
      have symbol := isIdentifier_append _ "_GROUP"
        (isIdentifier_append _ _ front (all_isIdentifierChar _ tagged)) (by decide)
      rcases List.mem_cons.1 isConstant with rfl | isOther
      · exact ofPin
      · rw [List.mem_singleton.1 isOther]
        exact constant_unbroken _ _ symbol tagged

end Device

theorem driverLines_eq (driver : String) :
    driverLines driver = sectionComment (driver ++ " driver functions") ++
      entryPoints.map (EntryPoint.prototype driver) := by
  have line : ∀ entry : EntryPoint, entry.prototype driver =
      (entry.result ++ " ") ++ (driver ++ (entry.suffix ++ ("(" ++ entry.parameters ++ ");"))) := by
    intro entry
    have closing : ");" = ")" ++ ";" := rfl
    simp only [EntryPoint.prototype, EntryPoint.name, closing, String.append_assoc]
  unfold driverLines
  simp only [entryPoints, List.map_cons, List.map_nil, line, String.append_assoc]
  rfl

theorem declarations_driverLines (driver : String) (identifier : isIdentifier driver = true) :
    (driverLines driver).filterMap declaredBy? =
      entryPoints.map (EntryPoint.declaration driver) := by
  have entries : (entryPoints.map (EntryPoint.prototype driver)).filterMap declaredBy? =
      entryPoints.map (EntryPoint.declaration driver) :=
    filterMap_written _ _ _ _ fun entry isEntry =>
      entry.declaredBy?_prototype driver identifier isEntry
  rw [driverLines_eq, List.filterMap_append, entries,
    filterMap_declaredBy?_eq_nil _ (sectionComment_inner _), List.nil_append]

theorem driverLines_unbroken (driver : String) (identifier : isIdentifier driver = true) :
    ∀ line ∈ driverLines driver, Unbroken line := by
  have word := (word_of_isIdentifier _ identifier).unbroken
  have parts : ∀ entry ∈ entryPoints, Unbroken entry.result ∧ Unbroken entry.suffix ∧
      Unbroken entry.parameters := by
    decide
  have title : Unbroken (driver ++ " driver functions") :=
    (unbroken_append _ _).2 ⟨word, by decide⟩
  rw [driverLines_eq]
  simp only [List.forall_mem_append]
  refine ⟨sectionComment_unbroken _ title, List.forall_mem_map.2 fun entry isEntry => ?_⟩
  obtain ⟨result, suffix, parameters⟩ := parts entry isEntry
  simp only [EntryPoint.prototype, EntryPoint.name, unbroken_append]
  exact ⟨result, by decide, ⟨word, suffix⟩, by decide, parameters, by decide, by decide⟩

section Wiring

variable {wiring : Wiring}

/-- The lines at the end of the header, with its declarations in place. -/
theorem header_ending (wiring : Wiring) :
    (ending wiring).header = sectionComment "SPI and I2C initialization" ++ [busCondition] ++
      sectionComment "SPI and I2C bus structures" ++
      wiring.buses.map (fun bus => Category.bus.declarationLine [] bus.symbol) ++
      sectionComment "Device bus main structure" ++
      [Category.main.declarationLine [] deviceBusSymbol] ++
      sectionComment "SPI and I2C device structures" ++
      wiring.chips.map (fun chip => Category.chip.declarationLine [] chip.symbol) ++
      wiring.drivers.flatMap driverLines ++
      sectionComment "Initialize all SPI and I2C bus devices" ++
      ["void " ++ initializerSymbol ++ "(void);", "#endif", "", "OSAL_C_HEADER_ENDS", "#endif"] := by
  have bus : "extern PinsBus " = "extern " ++ ("PinsBus" ++ " ") := by decide
  have main : "extern PinsDeviceBus " = "extern " ++ ("PinsDeviceBus" ++ " ") := by decide
  have chip : "extern PinsBusDevice " = "extern " ++ ("PinsBusDevice" ++ " ") := by decide
  simp only [ending, busHeader, Category.declarationLine, Category.typeOf, Category.star, spaced,
    List.nil_append, List.foldr_cons, List.foldr_nil, bus, main, chip, String.append_assoc,
    String.empty_append, List.append_assoc]
  rfl

/-- Objects that are declared one a line are read in their order. -/
theorem declarations_objects {α : Type} (category : Category) (symbol : α → String)
    (items : List α) (words : ∀ item ∈ items, Word (symbol item)) :
    (items.map fun item => category.declarationLine [] (symbol item)).filterMap declaredBy? =
      items.map fun item => category.declaration (symbol item) := by
  apply filterMap_written
  intro item member
  exact category.declaredBy?_declarationLine [] (fun _ none => absurd none List.not_mem_nil) _
    (words item member)

theorem declarations_ending (worded : Worded wiring)
    (drivers : ∀ driver ∈ wiring.drivers, isIdentifier driver = true) :
    (ending wiring).header.filterMap declaredBy? =
      wiringObjects wiring ++ wiringFunctions wiring := by
  have comment : ∀ title, (sectionComment title).filterMap declaredBy? = [] :=
    fun title => filterMap_declaredBy?_eq_nil _ (sectionComment_inner title)
  have condition : [busCondition].filterMap declaredBy? = [] := by decide
  have main : [Category.main.declarationLine [] deviceBusSymbol].filterMap declaredBy? =
      [Category.main.declaration deviceBusSymbol] := by decide +kernel
  have entries : (wiring.drivers.flatMap driverLines).filterMap declaredBy? =
      wiring.drivers.flatMap fun driver => entryPoints.map (EntryPoint.declaration driver) := by
    rw [List.filterMap_flatMap]
    exact List.flatMap_congr fun driver member =>
      declarations_driverLines driver (drivers driver member)
  have last : ["void " ++ initializerSymbol ++ "(void);", "#endif", "", "OSAL_C_HEADER_ENDS",
      "#endif"].filterMap declaredBy? = [initializer] := by decide +kernel
  rw [header_ending]
  simp only [List.filterMap_append, comment, condition, main, entries, last,
    declarations_objects .bus Bus.symbol _ worded.buses,
    declarations_objects .chip Chip.symbol _ worded.symbols, List.nil_append, List.append_nil]
  simp only [wiringObjects, wiringFunctions, List.append_assoc]

theorem header_ending_unbroken (worded : Worded wiring)
    (drivers : ∀ driver ∈ wiring.drivers, isIdentifier driver = true) :
    ∀ line ∈ (ending wiring).header, Unbroken line := by
  have comment : ∀ title, Unbroken title → ∀ line ∈ sectionComment title, Unbroken line :=
    sectionComment_unbroken
  have object : ∀ category symbol, Word symbol →
      Unbroken (Category.declarationLine [] category symbol) := fun category symbol word =>
    category.unbroken_declarationLine [] (fun _ none => absurd none List.not_mem_nil) symbol word
  have entries : ∀ line ∈ wiring.drivers.flatMap driverLines, Unbroken line := by
    intro line member
    obtain ⟨driver, isDriver, isLine⟩ := List.mem_flatMap.1 member
    exact driverLines_unbroken driver (drivers driver isDriver) line isLine
  rw [header_ending]
  simp only [List.forall_mem_append]
  refine ⟨⟨⟨⟨⟨⟨⟨⟨⟨⟨comment _ (by decide), by decide⟩, comment _ (by decide)⟩, ?buses⟩,
    comment _ (by decide)⟩, by decide⟩, comment _ (by decide)⟩, ?chips⟩, entries⟩,
    comment _ (by decide)⟩, by decide⟩
  case buses => exact List.forall_mem_map.2 fun bus isBus => object _ _ (worded.buses bus isBus)
  case chips =>
    exact List.forall_mem_map.2 fun chip isChip => object _ _ (worded.symbols chip isChip)

end Wiring

end PinTable.Listing
