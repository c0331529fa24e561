import PinTable.Listing.Buses
import PinTable.Proofs.Reading.Declarations

set_option autoImplicit false

namespace PinTable.Listing

open Reading

theorem sectionComment_inner (title : String) :
    ∀ line ∈ sectionComment title, atFileScope line = false := by
  have comment : atFileScope ("/* " ++ title ++ " */") = false := by
    rw [String.append_assoc, atFileScope_append '/' _ _ rfl]
    rfl
  simp only [sectionComment, List.forall_mem_cons, List.not_mem_nil, false_implies, implies_true,
    and_true]
  exact ⟨rfl, comment⟩

/-- The categories of objects that both files know. -/
inductive Category where
  | pins
  | top
  | head
  | bus
  | main
  | chip
  deriving DecidableEq, Repr

namespace Category

/-- The type of an object. The structure of each device has a type of its own. -/
def typeOf : Category → String → String
  | pins, symbol => symbol ++ "_t"
  | top, _ => "IoPinsHdr"
  | head, _ => "Pin"
  | bus, _ => "PinsBus"
  | main, _ => "PinsDeviceBus"
  | chip, _ => "PinsBusDevice"

/-- The heads of lists are pointers. -/
def star : Category → String
  | head => "*"
  | _ => ""

def declaration (category : Category) (symbol : String) : Declaration :=
  .object [category.typeOf symbol] (category.star ++ symbol)

/-- The symbol of a declared object of the category. -/
def symbol? (category : Category) : Declaration → Option String
  | .object type declarator => do
      let symbol ← after? category.star declarator
      if type = [category.typeOf symbol] then some symbol else none
  | .function .. => none

theorem append_t_ne (symbol text : String) (last : text.toList.getLast? ≠ some 't') :
    symbol ++ "_t" ≠ text := by
  rintro rfl
  rw [String.toList_append, List.getLast?_append] at last
  exact last rfl

/-- Objects of different categories have different types. -/
theorem typeOf_ne {category other : Category} (different : category ≠ other) (one two : String) :
    category.typeOf one ≠ other.typeOf two := by
  cases category <;> cases other <;> simp only [typeOf] <;> first
    | exact absurd rfl different
    | exact append_t_ne _ _ (by decide)
    | exact (append_t_ne _ _ (by decide)).symm
    | decide

theorem symbol?_declaration (category other : Category) (symbol : String) :
    category.symbol? (other.declaration symbol) = if category = other then some symbol else none := by
  by_cases same : category = other
  · subst same
    simp only [symbol?, declaration, after?_append, Option.bind_eq_bind, Option.bind_some, if_true]
  · rw [if_neg same]
    refine Option.bind_eq_none_iff.2 fun found _ => if_neg fun types => ?_
    exact typeOf_ne (Ne.symm same) symbol found (List.head_eq_of_cons_eq types)

theorem typeOf_ne_text (category : Category) (symbol text : String)
    (last : text.toList.getLast? ≠ some 't')
    (other : text ∉ ["IoPinsHdr", "Pin", "PinsBus", "PinsDeviceBus", "PinsBusDevice"]) :
    category.typeOf symbol ≠ text := by
  cases category
  case pins => exact append_t_ne symbol text last
  all_goals
    rintro rfl
    simp [typeOf] at other

theorem typeOf_not_mem_storageWords (category : Category) (symbol : String) :
    category.typeOf symbol ∉ storageWords := by
  simp only [storageWords, List.mem_cons, List.not_mem_nil, or_false, not_or]
  exact ⟨category.typeOf_ne_text _ _ (by decide) (by decide),
    category.typeOf_ne_text _ _ (by decide) (by decide)⟩

theorem word_typeOf (category : Category) (symbol : String) (word : Word symbol) :
    Word (category.typeOf symbol) := by
  cases category
  case pins => exact (word_append _ _).2 ⟨word, by decide⟩
  all_goals
    simp only [typeOf]
    decide

theorem word_declarator (category : Category) (symbol : String) (word : Word symbol) :
    Word (category.star ++ symbol) := by
  have star : Word category.star := by
    cases category <;> decide
  exact (word_append _ _).2 ⟨star, word⟩

theorem declarator_ne_equals (category : Category) (symbol : String) (plain : symbol ≠ "=") :
    category.star ++ symbol ≠ "=" := by
  cases category
  case head =>
    intro same
    have first := congrArg (fun text => text.toList.head?) same
    simp [star, String.toList_append] at first
  all_goals
    simp only [star, String.empty_append]
    exact plain

/-- The line of a header that declares an object, with words that say where it is kept. -/
def declarationLine (storage : List String) (category : Category) (symbol : String) : String :=
  "extern " ++ (spaced (storage ++ [category.typeOf symbol]) (category.star ++ symbol) ++ ";")

/-- The line of a source that defines an object, up to its value. -/
def definitionLine (storage : List String) (category : Category) (symbol value : String) : String :=
  spaced (storage ++ [category.typeOf symbol, category.star ++ symbol]) value

theorem storageWords_plain : ∀ word ∈ storageWords, Word word ∧ word ≠ "=" ∧ word ≠ "static" := by
  decide

section Line

variable (storage : List String) (stored : ∀ word ∈ storage, word ∈ storageWords)
  (category : Category) (symbol : String) (word : Word symbol)

include stored word

theorem unbroken_declarationLine : Unbroken (declarationLine storage category symbol) := by
  have type := category.word_typeOf symbol word
  have words : ∀ other ∈ storage ++ [category.typeOf symbol], '\n' ∉ other.toList := by
    simp only [List.forall_mem_append, List.forall_mem_singleton]
    exact ⟨fun other member => (storageWords_plain other (stored other member)).1.unbroken,
      type.unbroken⟩
  have inner := not_mem_spaced _ (category.star ++ symbol) '\n' (by decide) words
    (category.word_declarator symbol word).unbroken
  simp only [declarationLine, unbroken_append]
  exact ⟨by decide, inner, by decide⟩

theorem declaredBy?_declarationLine :
    declaredBy? (declarationLine storage category symbol) =
      some (category.declaration symbol) := by
  have words : ∀ other ∈ storage ++ [category.typeOf symbol], Word other := by
    simp only [List.forall_mem_append, List.forall_mem_singleton]
    exact ⟨fun other member => (storageWords_plain other (stored other member)).1,
      category.word_typeOf symbol word⟩
  rw [declarationLine, declaredBy?_extern _ _ words (category.word_declarator symbol word),
    List.append_assoc, List.singleton_append,
    objectOf_stored storage stored _ _ (category.typeOf_not_mem_storageWords symbol)]
  rfl

theorem definedBy?_definitionLine (plain : symbol ≠ "=") (value : String)
    (outer : atFileScope (definitionLine storage category symbol value) = true)
    (given : (wordsIn value).head? = some "=") :
    definedBy? (definitionLine storage category symbol value) =
      some (category.declaration symbol) := by
  have words : ∀ other ∈ storage ++ [category.typeOf symbol, category.star ++ symbol],
      Word other ∧ other ≠ "=" := by
    simp only [List.forall_mem_append, List.forall_mem_cons, List.not_mem_nil, false_implies,
      implies_true, and_true]
    refine ⟨fun other member => ?_, ⟨category.word_typeOf symbol word,
      category.typeOf_ne_text _ _ (by decide) (by decide)⟩,
      category.word_declarator symbol word, category.declarator_ne_equals symbol plain⟩
    have known := storageWords_plain other (stored other member)
    exact ⟨known.1, known.2.1⟩
  have shared : (storage ++ [category.typeOf symbol, category.star ++ symbol]).head? ≠
      some "static" := by
    cases storage with
    | nil =>
        exact fun same => category.typeOf_ne_text _ _ (by decide) (by decide) (Option.some.inj same)
    | cons first others =>
        have known := storageWords_plain first (stored first (List.mem_cons_self ..))
        exact fun same => known.2.2 (Option.some.inj same)
  rw [definitionLine, definedBy?_spaced _ _ outer shared words given,
    objectOf_stored storage stored _ _ (category.typeOf_not_mem_storageWords symbol)]
  rfl

end Line

end Category

/-- The words in front of the objects of devices, which are kept in flash memory. -/
def headerStorage : List String := ["OS_FLASH_MEM_H"]

def sourceStorage : List String := ["OS_FLASH_MEM"]

theorem headerStorage_stored : ∀ word ∈ headerStorage, word ∈ storageWords := by
  decide

theorem sourceStorage_stored : ∀ word ∈ sourceStorage, word ∈ storageWords := by
  decide

/-- An entry point that every driver has: its result, what its name has behind that of the driver,
and its parameters. -/
structure EntryPoint where
  result : String
  suffix : String
  parameters : String

def entryPoints : List EntryPoint :=
  [⟨"void", "_initialize_driver", "void"⟩,
    ⟨"void", "_initialize", "struct PinsBusDevice *device"⟩,
    ⟨"void", "_gen_req", "struct PinsBusDevice *device"⟩,
    ⟨"osalStatus", "_proc_resp", "struct PinsBusDevice *device"⟩,
    ⟨"void", "_set", "struct PinsBusDevice *device, os_short addr, os_int value"⟩,
    ⟨"os_int", "_get", "struct PinsBusDevice *device, os_short addr"⟩]

namespace EntryPoint

def name (entry : EntryPoint) (driver : String) : String := driver ++ entry.suffix

def declaration (driver : String) (entry : EntryPoint) : Declaration :=
  .function [entry.result] (entry.name driver) entry.parameters

def prototype (driver : String) (entry : EntryPoint) : String :=
  entry.result ++ (" " ++ (entry.name driver ++ ("(" ++ (entry.parameters ++ (")" ++ ";")))))

/-- What the name of an entry point has behind that of the driver is no end of another. -/
theorem eq_of_suffix : ∀ one ∈ entryPoints, ∀ other ∈ entryPoints,
    one.suffix.toList <:+ other.suffix.toList → one.suffix = other.suffix := by
  decide

/-- The name of an entry point tells the driver. -/
theorem name_inj {one other : EntryPoint} (isOne : one ∈ entryPoints)
    (isOther : other ∈ entryPoints) {driver user : String}
    (same : one.name driver = other.name user) : driver = user ∧ one.suffix = other.suffix := by
  have listed := congrArg String.toList same
  rw [name, name, String.toList_append, String.toList_append] at listed
  have ending : one.suffix.toList <:+ user.toList ++ other.suffix.toList :=
    ⟨driver.toList, listed⟩
  have suffixes : one.suffix = other.suffix := by
    rcases List.suffix_or_suffix_of_suffix ending (List.suffix_append _ _) with shorter | longer
    · exact eq_of_suffix one isOne other isOther shorter
    · exact (eq_of_suffix other isOther one isOne longer).symm
  rw [name, name, suffixes] at same
  exact ⟨(String.append_left_inj _).1 same, suffixes⟩

/-- The routine that initializes all drivers is no entry point of one of them. -/
theorem name_ne_initializerSymbol (entry : EntryPoint) (isEntry : entry ∈ entryPoints)
    (driver : String) : entry.name driver ≠ initializerSymbol := by
  have none : ∀ entry ∈ entryPoints, ¬ entry.suffix.toList <:+ initializerSymbol.toList := by
    decide
  intro same
  apply none entry isEntry
  rw [← same, name, String.toList_append]
  exact List.suffix_append _ _

theorem declaredBy?_prototype (driver : String) (identifier : isIdentifier driver = true)
    (entry : EntryPoint) (isEntry : entry ∈ entryPoints) :
    declaredBy? (entry.prototype driver) = some (entry.declaration driver) := by
  have results : ∀ entry ∈ entryPoints, Word entry.result ∧ '(' ∉ entry.result.toList ∧
      (entry.result = "void" ∨ entry.result = "osalStatus" ∨ entry.result = "os_int") := by
    decide
  have suffixes : ∀ entry ∈ entryPoints, Word entry.suffix ∧ '(' ∉ entry.suffix.toList := by
    decide
  obtain ⟨result, unopened, isResult⟩ := results entry isEntry
  obtain ⟨suffix, alsoUnopened⟩ := suffixes entry isEntry
  have name : Word (entry.name driver) :=
    (word_append _ _).2 ⟨word_of_isIdentifier _ identifier, suffix⟩
  have free : '(' ∉ (entry.name driver).toList := by
    rw [EntryPoint.name, String.toList_append, List.mem_append, not_or]
    exact ⟨not_mem_of_isIdentifier _ identifier '(' rfl, alsoUnopened⟩
  have found := function?_line ";" entry.result (entry.name driver) entry.parameters result name
    unopened free
  obtain ⟨c, starts, letter, other⟩ : ∃ c, entry.result.toList.head? = some c ∧
      isIdentifierChar c = true ∧ c ≠ 'e' := by
    rcases isResult with same | same | same <;> rw [same]
    · exact ⟨'v', rfl, rfl, by decide⟩
    · exact ⟨'o', rfl, rfl, by decide⟩
    · exact ⟨'o', rfl, rfl, by decide⟩
  have unexported : after? "extern " (entry.prototype driver) = none := by
    apply after?_eq_none _ _ 'e' rfl
    rw [prototype, String.toList_append, List.head?_append, starts, Option.some_or]
    simpa using other
  rw [declaredBy?, prototype, atFileScope_append c _ _ starts, letter, if_pos rfl, ← prototype,
    unexported, prototype]
  exact found

end EntryPoint

/-- The routine that initializes buses, drivers and chips. -/
def initializer : Declaration := .function ["void"] initializerSymbol "void"

/-- The objects that buses and chips need, in the order of both files. -/
def wiringObjects (wiring : Wiring) : List Declaration :=
  wiring.buses.map (fun bus => Category.bus.declaration bus.symbol) ++
    [Category.main.declaration deviceBusSymbol] ++
    wiring.chips.map fun chip => Category.chip.declaration chip.symbol

/-- The entry points of drivers, and the routine, as the header declares them. -/
def wiringFunctions (wiring : Wiring) : List Declaration :=
  wiring.drivers.flatMap (fun driver => entryPoints.map (EntryPoint.declaration driver)) ++
    [initializer]

end PinTable.Listing
