import Mathlib.Data.List.Perm.Basic
import PinTable.Proofs.Listing.HeaderText
import PinTable.Proofs.Listing.Initialization
import PinTable.Proofs.Listing.SourceText

set_option autoImplicit false

namespace PinTable.Listing

open Reading
open Device (Connection)

/-- The symbols of a category that some devices need, in the order of both files. -/
def symbolsOf (devices : List Device) : Category → List String
  | .pins => devices.map Device.base
  | .top => devices.map fun device => device.base ++ "_hdr"
  | .head => devices.flatMap fun device =>
      (device.declared.filterMap Declared.tag).eraseDups.map (tagSymbol device.base)
  | .bus => ((devices.flatMap Device.connections).map Connection.busId).eraseDups.map BusId.symbol
  | .main => [deviceBusSymbol]
  | .chip => (devices.flatMap Device.connections).map fun chip => chip.pin.busDeviceSymbol

/-- What a header and a source show of some devices. -/
structure Counterparts (header source : String) (devices : List Device) : Prop where
  /-- The objects and the routine that the header declares are those that the source defines, each
  as often. -/
  defined : ((declarationsIn header).filter fun declared =>
    declared.isObject || declared == initializer).Perm (definitionsIn source)
  /-- The objects are of these categories, and the routine is the only function. -/
  categories : ∀ defined ∈ definitionsIn source, defined.isObject = true →
    ∃ category symbol, defined = Category.declaration category symbol
  routine : (definitionsIn source).filter (fun defined => !defined.isObject) = [initializer]
  /-- Both files list the objects of a category in the same order. -/
  declarations : ∀ category : Category,
    (declarationsIn header).filterMap category.symbol? = symbolsOf devices category
  definitions : ∀ category : Category,
    (definitionsIn source).filterMap category.symbol? = symbolsOf devices category
  records : (recordsIn "PinsBusDevice" source).map SourceRecord.symbol = symbolsOf devices .chip
  /-- The driver of a chip has all its entry points in the header, each once. -/
  entries : ∀ record ∈ recordsIn "PinsBusDevice" source, ∃ driver,
    record.entries.drop 3 = heldEntries driver ∧ ∀ entry ∈ entryPoints,
      entry.declaration driver ∈ declarationsIn header ∧
      ((declarationsIn header).filterMap Declaration.functionName?).count (entry.name driver) = 1
  /-- A name that an entry point would have is declared for the driver of a chip only. -/
  others : ∀ driver, ∀ entry ∈ entryPoints,
    entry.name driver ∈ (declarationsIn header).filterMap Declaration.functionName? →
      ∃ record ∈ recordsIn "PinsBusDevice" source, record.entries.drop 3 = heldEntries driver

def tagObjects (device : Device) : List Declaration :=
  ((device.declared.filterMap Declared.tag).eraseDups.map (tagSymbol device.base)).map
    Category.head.declaration

/-- The objects of a device, in the order of the header. -/
def declaredObjects (device : Device) : List Declaration :=
  [Category.top.declaration (device.base ++ "_hdr"), Category.pins.declaration device.base] ++
    tagObjects device

/-- The objects of a device, in the order of the source. -/
def definedObjects (device : Device) : List Declaration :=
  [Category.pins.declaration device.base, Category.top.declaration (device.base ++ "_hdr")] ++
    tagObjects device

section Device

variable {signals : SignalIndex} {device : Device}

theorem tagObjects_ofDevice (signals : SignalIndex) (device : Device) :
    ((DeviceTable.ofDevice signals device).tags.headPins.map fun head =>
      Category.head.declaration (tagSymbol device.base head.1)) = tagObjects device := by
  have tags := (DeviceTable.ofDevice_follows signals device).map_headPins
  rw [Declared.map_fst_tagged] at tags
  rw [tagObjects, ← tags, List.map_map, List.map_map]
  rfl

theorem declarations_device (named : DeviceNamed signals device) :
    (deviceBlock signals device).header.filterMap declaredBy? = declaredObjects device := by
  rw [declaredObjects, ← tagObjects_ofDevice signals device]
  exact declarations_deviceHeader (tableWorded named)

theorem definitions_device (named : DeviceNamed signals device) :
    (deviceBlock signals device).source.filterMap definedBy? = definedObjects device := by
  have plain := ne_equals_of_isIdentifier device.base named.base
  rw [definedObjects, ← tagObjects_ofDevice signals device]
  exact definitions_deviceSource (tableWorded named) plain

theorem header_unbroken (named : DeviceNamed signals device) :
    ∀ line ∈ (deviceBlock signals device).header, Unbroken line :=
  deviceHeader_unbroken (tableWorded named) (constants_unbroken named)

theorem source_unbroken (named : DeviceNamed signals device) :
    ∀ line ∈ (deviceBlock signals device).source, Unbroken line :=
  deviceSource_unbroken (tableWorded named)

end Device

/-- Every item is an object of one of the categories. -/
def AreObjects (declared : List Declaration) : Prop :=
  ∀ object ∈ declared, ∃ category symbol, object = Category.declaration category symbol

namespace AreObjects

variable {declared : List Declaration} (objects : AreObjects declared)

include objects

theorem isObject : ∀ object ∈ declared, object.isObject = true := by
  intro object member
  obtain ⟨category, symbol, rfl⟩ := objects object member
  rfl

theorem filter_eq_self (keep : Declaration → Bool)
    (kept : ∀ object : Declaration, object.isObject = true → keep object = true) :
    declared.filter keep = declared :=
  List.filter_eq_self.2 fun object member => kept object (objects.isObject object member)

theorem filter_eq_nil : declared.filter (fun object => !object.isObject) = [] := by
  rw [List.filter_eq_nil_iff]
  intro object member
  rw [objects.isObject object member]
  exact Bool.false_ne_true

theorem functionNames : declared.filterMap Declaration.functionName? = [] := by
  rw [List.filterMap_eq_nil_iff]
  intro object member
  obtain ⟨category, symbol, rfl⟩ := objects object member
  rfl

end AreObjects

theorem areObjects_map (category : Category) (symbols : List String) :
    AreObjects (symbols.map category.declaration) := by
  intro object member
  obtain ⟨symbol, _, rfl⟩ := List.mem_map.1 member
  exact ⟨category, symbol, rfl⟩

theorem areObjects_append {first second : List Declaration} (one : AreObjects first)
    (other : AreObjects second) : AreObjects (first ++ second) :=
  List.forall_mem_append.2 ⟨one, other⟩

theorem areObjects_flatMap {α : Type} (items : List α) (read : α → List Declaration)
    (each : ∀ item, AreObjects (read item)) : AreObjects (items.flatMap read) := by
  intro object member
  obtain ⟨item, _, isObject⟩ := List.mem_flatMap.1 member
  exact each item object isObject

theorem areObjects_declaredObjects (device : Device) : AreObjects (declaredObjects device) := by
  apply areObjects_append _ (areObjects_map .head _)
  simp only [AreObjects, List.forall_mem_cons, List.not_mem_nil, false_implies, implies_true,
    and_true]
  exact ⟨⟨_, _, rfl⟩, _, _, rfl⟩

/-- Header and source have the same objects of a device. -/
theorem declaredObjects_perm (device : Device) :
    (declaredObjects device).Perm (definedObjects device) :=
  (List.Perm.swap _ _ []).append_right (tagObjects device)

theorem areObjects_definedObjects (device : Device) : AreObjects (definedObjects device) :=
  fun object member =>
    areObjects_declaredObjects device object ((declaredObjects_perm device).mem_iff.2 member)

theorem areObjects_wiringObjects (wiring : Wiring) : AreObjects (wiringObjects wiring) := by
  have buses := areObjects_map .bus (wiring.buses.map Bus.symbol)
  have chips := areObjects_map .chip (wiring.chips.map Chip.symbol)
  rw [List.map_map] at buses chips
  exact areObjects_append (areObjects_append buses (areObjects_map .main [deviceBusSymbol])) chips

theorem filterMap_symbol? (category other : Category) (symbols : List String) :
    (symbols.map other.declaration).filterMap category.symbol? =
      if category = other then symbols else [] := by
  rw [List.filterMap_map]
  by_cases same : category = other
  · have each : category.symbol? ∘ other.declaration = some :=
      funext fun symbol => by rw [Function.comp, Category.symbol?_declaration, if_pos same]
    rw [if_pos same, each, List.filterMap_some]
  · have each : category.symbol? ∘ other.declaration = fun _ => none :=
      funext fun symbol => by rw [Function.comp, Category.symbol?_declaration, if_neg same]
    rw [if_neg same, each, List.filterMap_none]

/-- The symbols of a category that one device needs. -/
def deviceSymbols (device : Device) : Category → List String
  | .pins => [device.base]
  | .top => [device.base ++ "_hdr"]
  | .head => (device.declared.filterMap Declared.tag).eraseDups.map (tagSymbol device.base)
  | _ => []

theorem symbols_declaredObjects (category : Category) (device : Device) :
    (declaredObjects device).filterMap category.symbol? = deviceSymbols device category := by
  have parts : declaredObjects device =
      [device.base ++ "_hdr"].map Category.top.declaration ++
        [device.base].map Category.pins.declaration ++ tagObjects device := rfl
  rw [parts, tagObjects, List.filterMap_append, List.filterMap_append]
  simp only [filterMap_symbol?]
  cases category <;> rfl

theorem symbols_definedObjects (category : Category) (device : Device) :
    (definedObjects device).filterMap category.symbol? = deviceSymbols device category := by
  have parts : definedObjects device = [device.base].map Category.pins.declaration ++
      [device.base ++ "_hdr"].map Category.top.declaration ++ tagObjects device := rfl
  rw [parts, tagObjects, List.filterMap_append, List.filterMap_append]
  simp only [filterMap_symbol?]
  cases category <;> rfl

section Wiring

variable {wiring : Wiring} {devices : List Device}

theorem symbols_wiringObjects (category : Category)
    (follows : wiring.Follows (devices.flatMap Device.connections)) :
    devices.flatMap (fun device => deviceSymbols device category) ++
      (wiringObjects wiring).filterMap category.symbol? = symbolsOf devices category := by
  have buses : wiring.buses.map Bus.symbol = symbolsOf devices .bus := by
    rw [symbolsOf, ← follows.map_id_buses, List.map_map]
    rfl
  have chips : wiring.chips.map Chip.symbol = symbolsOf devices .chip := by
    have pins := congrArg (List.map fun chip => chip.1.busDeviceSymbol) follows.chips
    rwa [List.map_map, List.map_map] at pins
  have parts : wiringObjects wiring =
      (symbolsOf devices .bus).map Category.bus.declaration ++
        [deviceBusSymbol].map Category.main.declaration ++
        (symbolsOf devices .chip).map Category.chip.declaration := by
    rw [← buses, ← chips, List.map_map, List.map_map]
    rfl
  rw [parts, List.filterMap_append, List.filterMap_append]
  simp only [filterMap_symbol?]
  cases category <;> simp [deviceSymbols, symbolsOf, List.map_eq_flatMap]

theorem functionNames_wiringFunctions (wiring : Wiring) :
    (wiringFunctions wiring).filterMap Declaration.functionName? =
      wiring.drivers.flatMap (fun driver => entryPoints.map fun entry => entry.name driver) ++
        [initializerSymbol] := by
  rw [wiringFunctions, List.filterMap_append, List.filterMap_flatMap]
  rfl

theorem symbol?_wiringFunctions (category : Category) (wiring : Wiring) :
    (wiringFunctions wiring).filterMap category.symbol? = [] := by
  rw [wiringFunctions, List.filterMap_append, List.filterMap_flatMap, List.append_eq_nil_iff,
    List.flatMap_eq_nil_iff]
  exact ⟨fun _ _ => rfl, rfl⟩

/-- No two functions that the header declares share a name. -/
theorem functionNames_nodup (follows : wiring.Follows (devices.flatMap Device.connections)) :
    ((wiringFunctions wiring).filterMap Declaration.functionName?).Nodup := by
  have suffixes : (entryPoints.map EntryPoint.suffix).Nodup := by decide
  rw [functionNames_wiringFunctions, List.nodup_append]
  refine ⟨?_, List.nodup_singleton _, ?_⟩
  · rw [List.nodup_flatMap]
    constructor
    · intro driver _
      apply List.Nodup.map_on _ suffixes.of_map
      intro one isOne other isOther same
      exact List.inj_on_of_nodup_map suffixes isOne isOther
        (EntryPoint.name_inj isOne isOther same).2
    · rw [follows.drivers]
      refine (nodup_eraseDups _).pairwise_of_forall_ne ?_
      intro driver _ user _ different name isName isOther
      obtain ⟨one, isOne, rfl⟩ := List.mem_map.1 isName
      obtain ⟨other, isEntry, same⟩ := List.mem_map.1 isOther
      exact different (EntryPoint.name_inj isEntry isOne same).1.symm
  · intro name isName routine isRoutine
    obtain ⟨driver, _, isEntry⟩ := List.mem_flatMap.1 isName
    obtain ⟨entry, known, rfl⟩ := List.mem_map.1 isEntry
    rw [List.mem_singleton.1 isRoutine]
    exact EntryPoint.name_ne_initializerSymbol entry known driver

/-- The drivers are those of the chips. -/
theorem mem_drivers_iff (follows : wiring.Follows (devices.flatMap Device.connections))
    (driver : String) : driver ∈ wiring.drivers ↔ driver ∈ wiring.chips.map Chip.driver := by
  have drivers := congrArg (List.map Prod.snd) follows.chips
  rw [List.map_map, List.map_map] at drivers
  rw [follows.drivers, List.mem_eraseDups]
  exact Iff.of_eq (congrArg (driver ∈ ·) drivers.symm)

theorem filter_wiringFunctions (wiring : Wiring) :
    (wiringFunctions wiring).filter
      (fun declared => declared.isObject || declared == initializer) = [initializer] := by
  have entries : (wiring.drivers.flatMap fun driver =>
      entryPoints.map (EntryPoint.declaration driver)).filter
        (fun declared => declared.isObject || declared == initializer) = [] := by
    rw [List.filter_eq_nil_iff]
    intro declared member
    obtain ⟨driver, _, isEntry⟩ := List.mem_flatMap.1 member
    obtain ⟨entry, known, rfl⟩ := List.mem_map.1 isEntry
    have different : entry.declaration driver ≠ initializer := fun same =>
      entry.name_ne_initializerSymbol known driver (Declaration.function.inj same).2.1
    simpa [EntryPoint.declaration, Declaration.isObject] using different
  rw [wiringFunctions, List.filter_append, entries, List.nil_append, List.filter_cons_of_pos]
  · rfl
  · rw [beq_self_eq_true, Bool.or_true]

/-- What the header declares of some devices and their wiring. -/
def declarationsOf (devices : List Device) (wiring : Wiring) : List Declaration :=
  devices.flatMap declaredObjects ++ wiringObjects wiring ++ wiringFunctions wiring

/-- What the source defines of some devices and their wiring. -/
def definitionsOf (devices : List Device) (wiring : Wiring) : List Declaration :=
  devices.flatMap definedObjects ++ wiringObjects wiring ++ [initializer]

theorem areObjects_declared (devices : List Device) (wiring : Wiring) :
    AreObjects (devices.flatMap declaredObjects ++ wiringObjects wiring) :=
  areObjects_append (areObjects_flatMap devices _ areObjects_declaredObjects)
    (areObjects_wiringObjects wiring)

theorem areObjects_defined (devices : List Device) (wiring : Wiring) :
    AreObjects (devices.flatMap definedObjects ++ wiringObjects wiring) :=
  areObjects_append (areObjects_flatMap devices _ areObjects_definedObjects)
    (areObjects_wiringObjects wiring)

theorem functionNames_declarationsOf (devices : List Device) (wiring : Wiring) :
    (declarationsOf devices wiring).filterMap Declaration.functionName? =
      (wiringFunctions wiring).filterMap Declaration.functionName? := by
  rw [declarationsOf, List.filterMap_append, (areObjects_declared devices wiring).functionNames,
    List.nil_append]

theorem counterparts {header source : String}
    (follows : wiring.Follows (devices.flatMap Device.connections))
    (declared : declarationsIn header = declarationsOf devices wiring)
    (defined : definitionsIn source = definitionsOf devices wiring)
    (records : recordsIn "PinsBusDevice" source = chipRecords wiring) :
    Counterparts header source devices := by
  have once := functionNames_nodup follows
  have entryName : ∀ driver ∈ wiring.drivers, ∀ entry ∈ entryPoints, entry.name driver ∈
      (wiringFunctions wiring).filterMap Declaration.functionName? := by
    intro driver isDriver entry isEntry
    rw [functionNames_wiringFunctions]
    apply List.mem_append_left
    exact List.mem_flatMap.2 ⟨driver, isDriver, List.mem_map_of_mem isEntry⟩
  constructor
  case defined =>
    have kept := (areObjects_declared devices wiring).filter_eq_self
      (fun declared => declared.isObject || declared == initializer)
      (fun object isObject => by rw [isObject, Bool.true_or])
    rw [declared, defined, declarationsOf, definitionsOf, List.filter_append, kept,
      filter_wiringFunctions]
    exact ((List.Perm.flatMap_left devices fun device _ => declaredObjects_perm device).append_right
      _).append_right _
  case categories =>
    rw [defined, definitionsOf]
    intro object member isObject
    rcases List.mem_append.1 member with inside | isRoutine
    · exact areObjects_defined devices wiring object inside
    · rw [List.mem_singleton.1 isRoutine] at isObject
      cases isObject
  case routine =>
    rw [defined, definitionsOf, List.filter_append,
      (areObjects_defined devices wiring).filter_eq_nil]
    rfl
  case declarations =>
    intro category
    rw [declared, declarationsOf, List.filterMap_append, List.filterMap_append,
      List.filterMap_flatMap, symbol?_wiringFunctions, List.append_nil,
      ← symbols_wiringObjects category follows]
    simp only [symbols_declaredObjects]
  case definitions =>
    intro category
    have routine : [initializer].filterMap category.symbol? = [] := rfl
    rw [defined, definitionsOf, List.filterMap_append, List.filterMap_append,
      List.filterMap_flatMap, routine, List.append_nil, ← symbols_wiringObjects category follows]
    simp only [symbols_definedObjects]
  case records =>
    have pins := congrArg (List.map fun chip => chip.1.busDeviceSymbol) follows.chips
    rw [List.map_map, List.map_map] at pins
    rw [records, map_symbol_chipRecords]
    exact pins
  case entries =>
    rw [records, declared, functionNames_declarationsOf]
    intro record member
    obtain ⟨chip, isChip, rfl⟩ := List.mem_map.1 member
    have isDriver := (mem_drivers_iff follows chip.driver).2 (List.mem_map_of_mem isChip)
    refine ⟨chip.driver, rfl, fun entry isEntry => ⟨?_, ?_⟩⟩
    · rw [declarationsOf, wiringFunctions]
      apply List.mem_append_right
      apply List.mem_append_left
      exact List.mem_flatMap.2 ⟨chip.driver, isDriver, List.mem_map_of_mem isEntry⟩
    · exact List.count_eq_one_of_mem once (entryName chip.driver isDriver entry isEntry)
  case others =>
    rw [records, declared, functionNames_declarationsOf, functionNames_wiringFunctions]
    intro driver entry isEntry member
    rcases List.mem_append.1 member with isName | isRoutine
    · obtain ⟨user, isUser, isOther⟩ := List.mem_flatMap.1 isName
      obtain ⟨other, known, same⟩ := List.mem_map.1 isOther
      obtain rfl := (EntryPoint.name_inj known isEntry same).1
      obtain ⟨chip, isChip, rfl⟩ := List.mem_map.1 ((mem_drivers_iff follows user).1 isUser)
      exact ⟨_, List.mem_map_of_mem isChip, rfl⟩
    · have same := List.mem_singleton.1 isRoutine
      exact absurd same (entry.name_ne_initializerSymbol isEntry driver)

end Wiring

section Run

variable {signals : SignalIndex} {devices : List Device} {wiring : Wiring}
  (named : ∀ device ∈ devices, DeviceNamed signals device)

/-- The lines of the header behind its beginning. -/
def headerLines (signals : SignalIndex) (devices : List Device) (wiring : Wiring) : List String :=
  devices.flatMap (fun device => (deviceBlock signals device).header) ++ (ending wiring).header

/-- The lines of the source in front of the buses. -/
def deviceLines (guard : String) (signals : SignalIndex) (devices : List Device) : List String :=
  (beginning guard).source ++ devices.flatMap fun device => (deviceBlock signals device).source

include named

theorem declarationsIn_headerLines (worded : Worded wiring)
    (drivers : ∀ driver ∈ wiring.drivers, isIdentifier driver = true) :
    (∀ line ∈ headerLines signals devices wiring, Unbroken line) ∧
      declarationsIn (textOf (headerLines signals devices wiring)) =
        declarationsOf devices wiring := by
  have unbroken : ∀ line ∈ headerLines signals devices wiring, Unbroken line := by
    rw [headerLines, List.forall_mem_append]
    refine ⟨?_, header_ending_unbroken worded drivers⟩
    intro line member
    obtain ⟨device, isDevice, isLine⟩ := List.mem_flatMap.1 member
    exact header_unbroken (named device isDevice) line isLine
  have each : devices.flatMap (fun device =>
      (deviceBlock signals device).header.filterMap declaredBy?) =
        devices.flatMap declaredObjects :=
    List.flatMap_congr fun device isDevice => declarations_device (named device isDevice)
  have last : [""].filterMap declaredBy? = [] := rfl
  refine ⟨unbroken, ?_⟩
  rw [declarationsIn, linesIn_textOf _ unbroken, headerLines, List.filterMap_append,
    List.filterMap_append, List.filterMap_flatMap, each, declarations_ending worded drivers, last,
    List.append_nil, declarationsOf, List.append_assoc]

theorem deviceLines_unbroken (guard : String) :
    ∀ line ∈ deviceLines guard signals devices, Unbroken line := by
  have opening : ∀ line ∈ (beginning guard).source, Unbroken line := by
    show ∀ line ∈ [markerLine, "#include \"pins.h\""], Unbroken line
    decide
  rw [deviceLines, List.forall_mem_append]
  refine ⟨opening, ?_⟩
  intro line member
  obtain ⟨device, isDevice, isLine⟩ := List.mem_flatMap.1 member
  exact source_unbroken (named device isDevice) line isLine

theorem definitionsIn_source (guard : String) (worded : Worded wiring) :
    definitionsIn (textOf (deviceLines guard signals devices) ++ (ending wiring).sourceText) =
      definitionsOf devices wiring := by
  have opening : (beginning guard).source.filterMap definedBy? = [] := by
    show [markerLine, "#include \"pins.h\""].filterMap definedBy? = []
    decide
  have each : devices.flatMap (fun device =>
      (deviceBlock signals device).source.filterMap definedBy?) =
        devices.flatMap definedObjects :=
    List.flatMap_congr fun device isDevice => definitions_device (named device isDevice)
  have buses : (linesIn (ending wiring).sourceText).filterMap definedBy? =
      wiringObjects wiring ++ [initializer] := by
    have last : [""].filterMap definedBy? = [] := rfl
    rw [Block.sourceText, ending, linesIn_textOf _ (busSource_unbroken worded),
      List.filterMap_append, definitions_busSource worded, last, List.append_nil]
  rw [definitionsIn, linesIn_textOf_append _ (deviceLines_unbroken named guard), deviceLines,
    List.filterMap_append, List.filterMap_append, opening, List.nil_append,
    List.filterMap_flatMap, each, buses, definitionsOf, List.append_assoc]

theorem recordsIn_source (guard : String) (worded : Worded wiring) :
    recordsIn "PinsBusDevice"
        (textOf (deviceLines guard signals devices) ++ (ending wiring).sourceText) =
      chipRecords wiring := by
  have opening : (beginning guard).source.filterMap (record? "PinsBusDevice") = [] := by
    apply filterMap_record?_eq_nil "PinsBusDevice" _ 'P' rfl
    show ∀ line ∈ [markerLine, "#include \"pins.h\""], line.toList.head? ≠ some 'P'
    decide
  have each : (devices.flatMap fun device => (deviceBlock signals device).source).filterMap
      (record? "PinsBusDevice") = [] := by
    rw [List.filterMap_flatMap, List.flatMap_eq_nil_iff]
    exact fun device _ => records_deviceSource (DeviceTable.ofDevice signals device)
  rw [recordsIn, linesIn_textOf_append _ (deviceLines_unbroken named guard), deviceLines,
    List.filterMap_append, List.filterMap_append, opening, each, List.nil_append, List.nil_append,
    ← recordsIn, recordsIn_ending_chips worded]

omit named

theorem headerText_ended (guard : String) (signals : SignalIndex) (devices : List Device) :
    let draft := devices.foldl (Draft.add signals) (Draft.begun guard)
    draft.ended.headerText = (beginning guard).headerText ++
      textOf (headerLines signals devices draft.wiring) := by
  intro draft
  have written : draft.written = beginning guard ++ Block.joined (devices.map (deviceBlock signals)) :=
    written_foldl_add signals devices (Draft.begun guard)
  rw [Draft.ended, Block.headerText_append, written, Block.headerText_append, String.append_assoc,
    headerLines, textOf_append, Block.headerText, Block.headerText]
  simp only [Block.headerText, Block.joined, List.flatMap_map]

theorem sourceText_ended (guard : String) (signals : SignalIndex) (devices : List Device) :
    let draft := devices.foldl (Draft.add signals) (Draft.begun guard)
    draft.ended.sourceText = textOf (deviceLines guard signals devices) ++
      (ending draft.wiring).sourceText := by
  intro draft
  have written : draft.written = beginning guard ++ Block.joined (devices.map (deviceBlock signals)) :=
    written_foldl_add signals devices (Draft.begun guard)
  rw [Draft.ended, Block.sourceText_append, written, Block.sourceText, Block.source_append,
    deviceLines]
  simp only [Block.joined, List.flatMap_map]

end Run

/-- The beginning of the header declares nothing, if its guard is of one line. -/
theorem declarationsIn_beginning (guard text : String) (isGuard : Unbroken guard) :
    declarationsIn ((beginning guard).headerText ++ text) = declarationsIn text := by
  have lines : (beginning guard).header =
      [markerLine, "#ifndef " ++ guard, "#define " ++ guard, "OSAL_C_HEADER_BEGINS"] := rfl
  have unbroken : ∀ line ∈ (beginning guard).header, Unbroken line := by
    rw [lines]
    simp only [List.forall_mem_cons, List.not_mem_nil, false_implies, implies_true, and_true,
      unbroken_append]
    exact ⟨by decide, ⟨by decide, isGuard⟩, ⟨by decide, isGuard⟩, by decide⟩
  have directive : ∀ front : String, front.toList.head? = some '#' →
      declaredBy? (front ++ guard) = none := by
    intro front starts
    have inner : atFileScope (front ++ guard) = false := atFileScope_append '#' _ _ starts
    rw [declaredBy?, inner, if_neg Bool.false_ne_true]
  have marker : declaredBy? markerLine = none := by decide
  have last : declaredBy? "OSAL_C_HEADER_BEGINS" = none := by decide
  have opening : (beginning guard).header.filterMap declaredBy? = [] := by
    rw [lines, List.filterMap_cons_none marker, List.filterMap_cons_none (directive _ rfl),
      List.filterMap_cons_none (directive _ rfl), List.filterMap_cons_none last, List.filterMap_nil]
  rw [declarationsIn, Block.headerText, linesIn_textOf_append _ unbroken, List.filterMap_append,
    opening, List.nil_append, ← declarationsIn]

/-- After any run of devices, the header declares what the source defines. A guard of one line adds
no declaration of its own. -/
theorem declarations_have_definitions (guard : String) (signals : SignalIndex)
    (devices : List Device) (named : ∀ device ∈ devices, DeviceNamed signals device)
    (drivers : ∀ chip ∈ devices.flatMap Device.connections, isIdentifier chip.driver = true) :
    let draft := devices.foldl (Draft.add signals) (Draft.begun guard)
    ∃ header, draft.ended.headerText = (beginning guard).headerText ++ header ∧
      (Unbroken guard → declarationsIn draft.ended.headerText = declarationsIn header) ∧
      Counterparts header draft.ended.sourceText devices := by
  intro draft
  have wiring : draft.wiring = Wiring.empty.connectAll (devices.flatMap Device.connections) :=
    wiring_foldl_add signals devices (Draft.begun guard)
  have follows : draft.wiring.Follows (devices.flatMap Device.connections) := by
    rw [wiring]
    exact Wiring.follows_connectAll _
  have chips : ∀ chip ∈ devices.flatMap Device.connections,
      Named chip.pin chip.driver := by
    intro chip member
    obtain ⟨device, isDevice, isChip⟩ := List.mem_flatMap.1 member
    obtain ⟨group, isGroup, pin, isPin, _, same⟩ := Device.exists_pin_of_mem_connections isChip
    have names := named device isDevice
    rw [same]
    exact ⟨names.base, (names.pins group isGroup pin isPin).name, drivers chip member⟩
  have worded := worded_of_follows follows chips
  have identifiers : ∀ driver ∈ draft.wiring.drivers, isIdentifier driver = true := by
    intro driver member
    rw [follows.drivers, List.mem_eraseDups] at member
    obtain ⟨chip, isChip, rfl⟩ := List.mem_map.1 member
    exact drivers chip isChip
  obtain ⟨unbroken, declared⟩ := declarationsIn_headerLines named worded identifiers
  have header := headerText_ended guard signals devices
  have source := sourceText_ended guard signals devices
  refine ⟨_, header, ?_, ?_⟩
  · intro isGuard
    rw [header]
    exact declarationsIn_beginning guard _ isGuard
  · rw [source]
    exact counterparts follows declared (definitionsIn_source named guard worded)
      (recordsIn_source named guard worded)

/-- The two devices share the symbols of their structures, so both files have each of them twice. -/
theorem declarations_have_definitions_devicesOfSharedBus :
    (∀ device ∈ devicesOfSharedBus, DeviceNamed .empty device) ∧
    (∀ chip ∈ devicesOfSharedBus.flatMap Device.connections, isIdentifier chip.driver = true) ∧
    let draft := devicesOfSharedBus.foldl (Draft.add .empty) (Draft.begun "PINS_H_")
    ∃ header, draft.ended.headerText = (beginning "PINS_H_").headerText ++ header ∧
      (Unbroken "PINS_H_" → declarationsIn draft.ended.headerText = declarationsIn header) ∧
      Counterparts header draft.ended.sourceText devicesOfSharedBus := by
  have names : ∀ device ∈ devicesOfSharedBus,
      isIdentifier device.name = true ∧ isIdentifier device.base = true := by
    decide +kernel
  have pins : ∀ device ∈ devicesOfSharedBus, ∀ group ∈ device.groups, ∀ pin ∈ group.pins,
      PinNamed .empty pin := by
    decide +kernel
  have named : ∀ device ∈ devicesOfSharedBus, DeviceNamed .empty device :=
    fun device member => ⟨(names device member).1, (names device member).2, pins device member⟩
  have drivers : ∀ chip ∈ devicesOfSharedBus.flatMap Device.connections,
      isIdentifier chip.driver = true := by
    decide +kernel
  exact ⟨named, drivers,
    declarations_have_definitions "PINS_H_" .empty devicesOfSharedBus named drivers⟩

end PinTable.Listing
