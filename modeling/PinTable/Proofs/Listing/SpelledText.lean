import PinTable.Proofs.Listing.ArrayText
import PinTable.Proofs.Listing.BusGraph
import PinTable.Proofs.Listing.HeaderText
import PinTable.Proofs.Listing.SourceText
import PinTable.Proofs.Path.Target
import PinTable.Proofs.Reading.Names

set_option autoImplicit false

namespace PinTable

open Reading

theorem all_kindName (kind : PinKind) : kind.name.toList.all isIdentifierChar = true := by
  cases kind <;> decide

theorem isIdentifier_kindName (kind : PinKind) : isIdentifier kind.name = true := by
  cases kind <;> decide

/-- Identifiers with an underscore between them are one identifier. -/
theorem isIdentifier_underscore (first rest : String) (identifier : isIdentifier first = true)
    (others : rest.toList.all isIdentifierChar = true) :
    isIdentifier (first ++ "_" ++ rest) = true :=
  isIdentifier_append _ rest (isIdentifier_append first "_" identifier (by decide)) others

/-- The base name and the name of a pin are identifiers. -/
structure QualifiedPin.WellNamed (pin : QualifiedPin) : Prop where
  base : isIdentifier pin.base = true
  name : isIdentifier pin.name = true

namespace QualifiedPin.WellNamed

variable {pin : QualifiedPin}

theorem joined (named : pin.WellNamed) : isIdentifier pin.joined = true :=
  Listing.isIdentifier_joined pin named.base named.name

theorem settingsArray (named : pin.WellNamed) : isIdentifier pin.settingsArray = true :=
  isIdentifier_append _ "_prm" named.joined (by decide)

theorem interruptSymbol (named : pin.WellNamed) : isIdentifier pin.interruptSymbol = true :=
  isIdentifier_append _ "_intconf"
    (isIdentifier_underscore _ _ named.base (all_isIdentifierChar _ named.name)) (by decide)

theorem busDeviceSymbol (named : pin.WellNamed) : isIdentifier pin.busDeviceSymbol = true :=
  isIdentifier_underscore _ _
    (isIdentifier_append _ _ (isIdentifier_append _ "_device_" named.base (by decide))
      (all_kindName _)) (all_isIdentifierChar _ named.name)

theorem steps (named : pin.WellNamed) : Steps pin.member := by
  have path : pin.member = pin.base ++ ("." ++ (pin.kind.name ++ ("." ++ pin.name))) := by
    simp only [member, String.append_assoc]
  rw [path]
  exact ((steps_identifier _ named.name).cons _ (isIdentifier_kindName _)).cons _ named.base

end QualifiedPin.WellNamed

theorem isIdentifier_tagSymbol (base tag : String) (isBase : isIdentifier base = true)
    (isTag : isIdentifier tag = true) : isIdentifier (tagSymbol base tag) = true :=
  isIdentifier_append _ "_group"
    (isIdentifier_underscore _ _ isBase (all_isIdentifierChar _ isTag)) (by decide)

/-- Two identifiers with a point between them, as a chip is referred to. -/
def ChipReference (reference : String) : Prop :=
  ∃ kind name, isIdentifier kind = true ∧ isIdentifier name = true ∧
    reference = kind ++ "." ++ name

theorem isIdentifier_deviceSymbol (base reference : String) (isBase : isIdentifier base = true)
    (isReference : ChipReference reference) : isIdentifier (deviceSymbol base reference) = true := by
  obtain ⟨kind, name, isKind, isName, rfl⟩ := isReference
  have plain : ∀ c, isIdentifierChar c = true ∨ c = '.' →
      isIdentifierChar (if c = '.' then '_' else c) = true := by
    intro c here
    split
    · rfl
    · next other => exact here.resolve_right other
  apply isIdentifier_append _ _ (isIdentifier_append _ "_device_" isBase (by decide))
  rw [String.toList_map, List.all_map, List.all_eq_true]
  intro c member
  simp only [String.toList_append, List.mem_append] at member
  apply plain
  rcases member with (inKind | point) | inName
  · exact .inl (isIdentifierChar_of_mem _ isKind c inKind)
  · exact .inr (by simpa using point)
  · exact .inl (isIdentifierChar_of_mem _ isName c inName)

/-- Of the parts of a bus symbol, the clock line alone may be no part of an identifier. -/
theorem isIdentifier_busSymbol_iff (id : BusId) (base : isIdentifier id.base = true) :
    isIdentifier id.symbol = true ↔ 0 ≤ id.clock := by
  constructor
  · intro identifier
    by_contra negative
    have sign : '-' ∈ id.symbol.toList := by
      simp [BusId.symbol, intText, String.toList_append, Int.not_le.1 negative]
    cases isIdentifierChar_of_mem _ identifier '-' sign
  · intro positive
    have digits : (intText id.clock).toList.all isIdentifierChar = true := by
      rw [intText, if_neg (by omega), List.all_eq_true]
      intro c member
      simp [isIdentifierChar, Char.isAlphanum, natText_isDigit _ c member]
    exact isIdentifier_underscore _ _
      (isIdentifier_append _ _ (isIdentifier_append _ "_bus_" base (by decide)) (all_kindName _))
      digits

theorem TargetPaths.isIdentifier_guard (paths : TargetPaths) :
    isIdentifier paths.guard = true := by
  have each : ∀ c, isIdentifierChar (guardChar c) = true := by
    intro c
    rcases guardChar_cases c with upper | digit | underscore
    · have letter : (guardChar c).isAlpha = true := by
        show ((guardChar c).isUpper || (guardChar c).isLower) = true
        rw [upper, Bool.true_or]
      simp [isIdentifierChar, Char.isAlphanum, letter]
    · simp [isIdentifierChar, Char.isAlphanum, digit]
    · rw [underscore]
      rfl
  apply isIdentifier_append _ "_INCLUDED" _ (by decide)
  apply isIdentifier_append "IOC_" _ (by decide)
  rw [String.toList_ofList, List.all_map, List.all_eq_true]
  exact fun c _ => each c

namespace Listing

theorem spelledLine_sectionComment (title : String) :
    ∀ line ∈ sectionComment title, SpelledLine line := by
  have comment : SpelledLine ("/* " ++ title ++ " */") := by
    apply spelledLine_comment
    rw [String.append_assoc]
    exact head?_append_of_head? _ _ '/' rfl
  simp only [sectionComment, List.forall_mem_cons, List.not_mem_nil, false_implies, implies_true,
    and_true]
  exact ⟨by decide, comment⟩

/-- A line with another first character is no row. -/
theorem not_row (line : String) (first : line.toList.head? ≠ some ' ') :
    after? rowStart line = none :=
  after?_eq_none _ line ' ' rfl first

/-- A line that starts with anything but a blank is code as a whole. -/
theorem spelledLine_of_start {front rest : String} (c : Char) (starts : front.toList.head? = some c)
    (other : c ≠ ' ') (spelled : Spelled (front ++ rest)) : SpelledLine (front ++ rest) := by
  refine spelled.line (not_row _ ?_)
  rw [head?_append_of_head? _ _ c starts]
  exact fun same => other (Option.some.inj same)

theorem ne_blank_of_isIdentifierChar (c : Char) (letter : isIdentifierChar c = true) : c ≠ ' ' := by
  rintro rfl
  cases letter

/-- A line that is indented as rows are is none, if it goes on with an identifier. -/
theorem not_row_indented (text rest : String) (identifier : isIdentifier text = true) :
    after? rowStart ("    " ++ (text ++ rest)) = none := by
  obtain ⟨c, first, letter, -⟩ := start_of_isIdentifier _ identifier
  cases found : after? rowStart ("    " ++ (text ++ rest)) with
  | none => rfl
  | some others =>
      have start : rowStart = "    " ++ "\x7b" := rfl
      have same := eq_append_of_after? _ _ _ found
      rw [start, String.append_assoc] at same
      have brace := congrArg (fun text => text.toList.head?) ((String.append_right_inj _).1 same)
      simp only [head?_append_of_head? _ _ c first, head?_append_of_head? "\x7b" _ '\x7b' rfl,
        Option.some.injEq] at brace
      rw [brace] at letter
      cases letter

section Table

variable {table : DeviceTable}

/-- The names in a row are identifiers, and so is the symbol of its chip. -/
structure RowSpelled (row : Row) : Prop where
  pin : row.pin.WellNamed
  next : ∀ pin ∈ row.next, pin.WellNamed
  tag : ∀ tag ∈ row.newTag, isIdentifier tag = true
  device : ∀ symbol ∈ row.device, isIdentifier symbol = true

structure TableSpelled (table : DeviceTable) : Prop where
  base : isIdentifier table.base = true
  rows : ∀ group ∈ table.groups, ∀ row ∈ group.rows, RowSpelled row
  heads : ∀ head ∈ table.tags.headPins, isIdentifier head.1 = true ∧ head.2.WellNamed

theorem spelled_typeLines (spelled : TableSpelled table) :
    ∀ line ∈ typeLines table, SpelledLine line := by
  have member : ∀ group ∈ table.groups, ∀ row ∈ group.rows,
      SpelledLine ("    Pin " ++ row.pin.name ++ ";") := by
    intro group isGroup row isRow
    have name := spelled_identifier _ (spelled.rows group isGroup row isRow).pin.name
    have opens : Opens "    Pin " := by decide
    rw [String.append_assoc]
    exact (opens.append (name.append (by decide))).line
      (after?_append_eq_none _ _ _ (by decide) (by decide))
  have kind : ∀ kind : PinKind, SpelledLine ("  " ++ kind.name ++ ";") := by
    intro kind
    cases kind <;> decide
  have groups : ∀ lines ∈ table.groups.map structLines, ∀ line ∈ lines, SpelledLine line := by
    refine List.forall_mem_map.2 fun group isGroup => ?_
    simp only [structLines, List.forall_mem_append]
    exact ⟨⟨by decide, List.forall_mem_map.2 (member group isGroup)⟩,
      List.forall_mem_cons.2 ⟨by decide, List.forall_mem_singleton.2 (kind _)⟩⟩
  have name : SpelledLine (table.base ++ "_t;") := by
    have type := spelled_identifier _ (isIdentifier_append _ "_t" spelled.base (by decide))
    have closing : "_t;" = "_t" ++ ";" := rfl
    obtain ⟨c, first, letter, -⟩ := start_of_isIdentifier _ spelled.base
    rw [closing, ← String.append_assoc]
    exact spelledLine_of_start c (head?_append_of_head? _ _ c first)
      (ne_blank_of_isIdentifierChar c letter) (type.append (by decide))
  unfold typeLines
  simp only [List.forall_mem_append]
  exact ⟨⟨⟨spelledLine_sectionComment _, by decide⟩,
    forall_mem_aggregate _ _ _ (by decide) (by decide) (by decide) (by decide) groups⟩,
    List.forall_mem_singleton.2 name⟩

section Objects

variable (category : Category) (symbol : String) (identifier : isIdentifier symbol = true)

include identifier

theorem spelled_typeOf : Spelled (category.typeOf symbol) := by
  cases category
  case pins => exact spelled_identifier _ (isIdentifier_append _ "_t" identifier (by decide))
  all_goals
    simp only [Category.typeOf]
    decide

theorem spelled_declarator : Spelled (category.star ++ symbol) := by
  have name := spelled_identifier _ identifier
  cases category
  case head => exact Opens.append (by decide) name
  all_goals
    simp only [Category.star, String.empty_append]
    exact name

theorem spelled_declarationLine (storage : List String)
    (stored : ∀ word ∈ storage, word ∈ storageWords) :
    SpelledLine (category.declarationLine storage symbol) := by
  have known : ∀ word ∈ storageWords, Spelled word := by decide
  have opens : Opens "extern " := by decide
  have words : ∀ word ∈ storage ++ [category.typeOf symbol], Spelled word := by
    simp only [List.forall_mem_append, List.forall_mem_singleton]
    exact ⟨fun word member => known word (stored word member),
      spelled_typeOf category symbol identifier⟩
  have object := spelled_spaced _ words _ (spelled_declarator category symbol identifier)
  rw [Category.declarationLine]
  exact spelledLine_of_start 'e' rfl (by decide) (opens.append (object.append (by decide)))

end Objects

theorem spelled_declarationLines (spelled : TableSpelled table) :
    ∀ line ∈ declarationLines table, SpelledLine line := by
  have top := isIdentifier_append _ "_hdr" spelled.base (by decide)
  rw [declarationLines_eq]
  simp only [List.forall_mem_append, List.forall_mem_singleton]
  exact ⟨⟨⟨spelledLine_sectionComment _,
    spelled_declarationLine .top _ top headerStorage headerStorage_stored⟩,
    spelledLine_sectionComment _⟩,
    spelled_declarationLine .pins _ spelled.base headerStorage headerStorage_stored⟩

theorem spelled_headDeclarations (spelled : TableSpelled table) :
    ∀ line ∈ headsSection table (headDeclaration table.base), SpelledLine line := by
  apply forall_mem_headsSection
  case comment => exact spelledLine_sectionComment _
  case heads =>
    intro head member
    rw [headDeclaration_eq]
    exact spelled_declarationLine .head _
      (isIdentifier_tagSymbol _ _ spelled.base (spelled.heads head member).1) headerStorage
      headerStorage_stored

theorem spelled_constant (symbol value : String) (isSymbol : isIdentifier symbol = true)
    (isValue : isIdentifier value = true) :
    SpelledLine (NameConstant.text ⟨uppercase symbol, value⟩) := by
  have opens : Opens "#define " := by decide
  have blank : Closes " " ∧ Opens " " := by decide
  have name := spelled_identifier _ (isIdentifier_uppercase _ isSymbol)
  have text : NameConstant.text ⟨uppercase symbol, value⟩ =
      "#define " ++ (uppercase symbol ++ (" " ++ ("\"" ++ (value ++ "\"")))) := by
    have quote : " \"" = " " ++ "\"" := rfl
    unfold NameConstant.text
    rw [quote]
    simp only [String.append_assoc]
  rw [text]
  exact spelledLine_of_start '#' rfl (by decide)
    (opens.append (name.append (blank.1.append blank.2 (spelled_quoted _ isValue))))

theorem spelled_constantLines (spelled : TableSpelled table) :
    ∀ line ∈ constantLines table, SpelledLine line := by
  have constants : ∀ constant ∈ table.constants, SpelledLine constant.text := by
    intro constant member
    obtain ⟨row, inTable, isConstant⟩ := List.mem_flatMap.1 member
    obtain ⟨group, isGroup, isRow⟩ := List.mem_flatMap.1 inTable
    obtain ⟨pin, -, tagged, -⟩ := spelled.rows group isGroup row isRow
    have ofPin : SpelledLine (NameConstant.ofPin row.pin).text :=
      spelled_constant _ _ pin.joined pin.name
    unfold Row.constants at isConstant
    split at isConstant
    · rw [List.mem_singleton.1 isConstant]
      exact ofPin
    · next tag isTag =>
        have symbol := isIdentifier_append _ "_GROUP" (isIdentifier_underscore _ _ pin.base
          (all_isIdentifierChar _ (tagged tag isTag))) (by decide)
        rcases List.mem_cons.1 isConstant with rfl | isOther
        · exact ofPin
        · rw [List.mem_singleton.1 isOther]
          exact spelled_constant _ _ symbol (tagged tag isTag)
  simp only [constantLines, List.forall_mem_append]
  exact ⟨spelledLine_sectionComment _, List.forall_mem_map.2 constants⟩

theorem spelled_deviceHeader (spelled : TableSpelled table) :
    ∀ line ∈ deviceHeader table, SpelledLine line := by
  rw [deviceHeader]
  simp only [List.forall_mem_append]
  exact ⟨⟨⟨spelled_typeLines spelled, spelled_declarationLines spelled⟩,
    spelled_headDeclarations spelled⟩, spelled_constantLines spelled⟩

theorem spelled_groupDefinitions {group : GroupTable}
    (spelled : ∀ row ∈ group.rows, RowSpelled row) :
    ∀ line ∈ groupDefinitions group, SpelledLine line := by
  apply forall_mem_groupDefinitions
  case comment => exact spelledLine_sectionComment _
  case array =>
    intro row isRow
    have symbol := spelled_identifier _ (spelled row isRow).pin.settingsArray
    have entries : ∀ entry ∈ row.settings.entries, Spelled entry := by
      unfold Settings.entries
      simp only [List.forall_mem_append]
      refine ⟨by decide, fun entry member => ?_⟩
      obtain ⟨setting, -, isEntry⟩ := List.mem_flatMap.1 member
      rcases List.mem_cons.1 isEntry with rfl | isValue
      · cases setting.1 <;> decide
      · rw [List.mem_singleton.1 isValue]
        exact spelled_intText _
    have opens : Opens arrayStart := by decide
    have between : Closes ("[]=" ++ " \x7b") ∧ Opens ("[]=" ++ " \x7b") := by decide
    have values := (spelled_commaList _ entries).append (by decide : Closes ("\x7d" ++ ";"))
    have line : arrayLine row = arrayStart ++ (row.pin.settingsArray ++ (("[]=" ++ " \x7b") ++
        (commaList row.settings.entries ++ ("\x7d" ++ ";")))) := by
      rw [arrayLine_eq]
      simp only [String.append_assoc]
    rw [line]
    exact spelledLine_of_start 's' rfl (by decide)
      (opens.append (symbol.append (between.1.append between.2 values)))
  case interrupt =>
    intro row isRow
    have symbol := spelled_identifier _ (spelled row isRow).pin.interruptSymbol
    have opens : Opens "PINS_INTCONF_STRUCT(" := by decide
    unfold interruptLine
    rw [String.append_assoc]
    exact spelledLine_of_start 'P' rfl (by decide) (opens.append (symbol.append (by decide)))

theorem steps_reference (pin : Option QualifiedPin) (named : ∀ known ∈ pin, known.WellNamed) :
    Spelled (QualifiedPin.reference pin) := by
  apply spelled_referenceTo
  intro path found
  obtain ⟨known, isKnown, rfl⟩ := Option.map_eq_some_iff.1 found
  exact (named known isKnown).steps

theorem spelled_readingOf {row : Row} (spelled : RowSpelled row) :
    ∀ entry ∈ (readingOf row).entries, Spelled entry := by
  have type : ∀ kind : PinKind, Spelled kind.typeSymbol := by
    intro kind
    cases kind <;> decide
  have array := spelled_identifier _ spelled.pin.settingsArray
  have opens : Opens "sizeof(" := by decide
  have size : Spelled ("sizeof(" ++ row.pin.settingsArray ++ ")/sizeof(os_ushort)") := by
    rw [String.append_assoc]
    exact opens.append (array.append (by decide))
  simp only [readingOf, List.forall_mem_cons, List.not_mem_nil, false_implies, implies_true,
    and_true]
  exact ⟨type _, spelled_intText _, spelled_intText _, array, size,
    steps_reference _ spelled.next⟩

/-- The words of a row behind what its signal says. -/
def rowTail (last : Bool) (row : Row) : List String :=
  [devicePointer row, interruptPointer row ++ ("\x7d" ++ commaUnless last), "/*", row.pin.name, "*/"]

theorem rowLine_eq_tail (last : Bool) (row : Row) :
    rowLine last row = rowStart ++ (commaList (readingOf row).entries ++ (", " ++
      (row.signal.getD nullReference ++ (" " ++ String.intercalate " " (rowTail last row))))) := by
  have opening : " /* " = " " ++ ("/*" ++ " ") := by decide
  have closing : " */" = " " ++ "*/" := rfl
  rw [rowLine_eq, rowEnding, opening, closing]
  simp only [rowTail, String.intercalate_cons_cons, String.intercalate_singleton,
    String.append_assoc]

theorem spelled_rowTail {row : Row} (spelled : RowSpelled row) (last : Bool) :
    ∀ word ∈ rowTail last row, ' ' ∉ word.toList ∧ Spelled word := by
  have comma : Closes ("\x7d" ++ commaUnless last) ∧ ' ' ∉ ("\x7d" ++ commaUnless last).toList := by
    cases last <;> decide
  have call : ∀ name symbol : String, Opens (name ++ "(") → ' ' ∉ name.toList →
      isIdentifier symbol = true →
      ' ' ∉ (name ++ "(" ++ symbol ++ ")").toList ∧ Spelled (name ++ "(" ++ symbol ++ ")") := by
    intro name symbol opens free identifier
    have word := spelled_identifier _ identifier
    refine ⟨?_, ?_⟩
    · simp only [String.toList_append, List.mem_append, not_or]
      exact ⟨⟨⟨free, by decide⟩, not_mem_of_isIdentifier _ identifier ' ' rfl⟩, by decide⟩
    · rw [String.append_assoc]
      exact opens.append (word.append (by decide))
  have device : ' ' ∉ (devicePointer row).toList ∧ Spelled (devicePointer row) := by
    unfold devicePointer
    split
    · next symbol found =>
        exact call "PINS_DEVCONF_PTR" symbol (by decide) (by decide) (spelled.device symbol found)
    · decide
  have interrupt : ' ' ∉ (interruptPointer row).toList ∧ Spelled (interruptPointer row) := by
    unfold interruptPointer
    split
    · exact call "PINS_INTCONF_PTR" _ (by decide) (by decide) spelled.pin.interruptSymbol
    · decide
  have name := not_mem_of_isIdentifier _ spelled.pin.name ' ' rfl
  simp only [rowTail, List.forall_mem_cons, List.not_mem_nil, false_implies, implies_true,
    and_true]
  refine ⟨device, ⟨?_, interrupt.2.append comma.1⟩, by decide,
    ⟨name, spelled_identifier _ spelled.pin.name⟩, by decide⟩
  rw [String.toList_append, List.mem_append, not_or]
  exact ⟨interrupt.1, comma.2⟩

theorem spelled_rowLine {row : Row} (spelled : RowSpelled row) (last : Bool) :
    SpelledLine (rowLine last row) := by
  -- The six entries do not depend on what the row quotes.
  have worded : RowWorded { row with signal := none, device := none } :=
    ⟨word_of_isIdentifier _ spelled.pin.base, word_of_isIdentifier _ spelled.pin.name,
      fun next isNext => word_member _ (word_of_isIdentifier _ (spelled.next next isNext).base)
        (word_of_isIdentifier _ (spelled.next next isNext).name),
      (fun _ absent => by cases absent), (fun _ absent => by cases absent)⟩
  have words : ∀ entry ∈ (readingOf row).entries, Word entry := worded.entries
  have tail := spelled_rowTail spelled last
  rw [rowLine_eq_tail]
  exact spelledLine_row _ rfl words (spelled_readingOf spelled) _ _ rfl
    (fun word member => (tail word member).1) fun word member => (tail word member).2

theorem spelled_groupLines (last : Bool) {group : GroupTable}
    (spelled : ∀ row ∈ group.rows, RowSpelled row) :
    ∀ line ∈ groupLines last group, SpelledLine line := by
  have count : Spelled (natText group.rows.length) := by
    have text : intText group.rows.length = natText group.rows.length := by simp [intText]
    rw [← text]
    exact spelled_intText _
  have first : Spelled (QualifiedPin.reference (group.rows.head?.map Row.pin)) := by
    apply steps_reference
    intro pin found
    obtain ⟨row, isFirst, rfl⟩ := Option.map_eq_some_iff.1 found
    exact (spelled row (List.mem_of_mem_head? isFirst)).pin
  have entries : ∀ entry ∈ (headingOf group).entries, Spelled entry := by
    simp only [headingOf, List.forall_mem_cons, List.not_mem_nil, false_implies, implies_true,
      and_true]
    exact ⟨count, first⟩
  have behind : Closes ("\x7d" ++ ("," ++ (" /* " ++ (group.kind.name ++ " */")))) := by
    cases group.kind <;> decide
  have opens : Opens headingStart := by decide
  have heading : SpelledLine (headingLine group) :=
    (opens.append ((spelled_commaList _ entries).append behind)).line
      (after?_append_eq_none _ _ _ (by decide) (by decide))
  have closing : SpelledLine ("  \x7d" ++ commaUnless last) := by
    cases last <;> decide
  rw [groupLines_eq]
  simp only [List.forall_mem_append, List.forall_mem_singleton]
  exact ⟨⟨heading, forall_mem_mapLast _ _ _ fun last row isRow =>
    spelled_rowLine (spelled row isRow) last⟩, closing⟩

theorem spelled_tableLines (spelled : TableSpelled table) :
    ∀ line ∈ tableLines table, SpelledLine line := by
  have base := spelled_identifier _ spelled.base
  have type := spelled_identifier _ (isIdentifier_append _ "_t" spelled.base (by decide))
  have opens : Opens "OS_FLASH_MEM " := by decide
  have blank : Closes " " ∧ Opens " " := by decide
  have opening : SpelledLine (baseLine table.base) := by
    have line : baseLine table.base =
        "OS_FLASH_MEM " ++ ((table.base ++ "_t") ++ (" " ++ (table.base ++ " ="))) := by
      have space : "_t " = "_t" ++ " " := rfl
      unfold baseLine
      rw [space]
      simp only [String.append_assoc]
    rw [line]
    exact spelledLine_of_start 'O' rfl (by decide)
      (opens.append (type.append (blank.1.append blank.2 (base.append (by decide)))))
  rw [tableLines_eq]
  simp only [List.forall_mem_append, List.forall_mem_singleton]
  exact ⟨⟨spelledLine_sectionComment _, opening⟩,
    forall_mem_aggregate _ _ _ (by decide) (by decide) (by decide) (by decide)
      (forall_mem_mapLast _ _ _ fun last group isGroup =>
        spelled_groupLines last (spelled.rows group isGroup))⟩

theorem spelled_groupListLines (spelled : TableSpelled table) :
    ∀ line ∈ groupListLines table, SpelledLine line := by
  apply forall_mem_groupListLines
  case comment => exact spelledLine_sectionComment _
  case opening =>
    have symbol := spelled_identifier _
      (isIdentifier_append _ "_group_list" spelled.base (by decide))
    have opens : Opens "static OS_FLASH_MEM PinGroupHdr * OS_FLASH_MEM " := by decide
    unfold groupListLine
    rw [String.append_assoc]
    exact spelledLine_of_start 's' rfl (by decide) (opens.append (symbol.append (by decide)))
  case brace => decide
  case none => decide
  case entries =>
    intro last group _
    have steps : Steps (table.base ++ ("." ++ (group.kind.name ++ ("." ++ "hdr")))) :=
      ((steps_identifier "hdr" (by decide)).cons _ (isIdentifier_kindName _)).cons _ spelled.base
    have opens : Opens "  " := by decide
    have line : groupEntry table.base last group = "  " ++
        (addressOf (table.base ++ ("." ++ (group.kind.name ++ ("." ++ "hdr")))) ++
          commaUnless last) := by
      have start : "  &" = "  " ++ "&" := rfl
      have header : ".hdr" = "." ++ "hdr" := rfl
      unfold groupEntry addressOf
      rw [start, header]
      simp only [String.append_assoc]
    have entry : Spelled (addressOf (table.base ++ ("." ++ (group.kind.name ++ ("." ++ "hdr")))) ++
        commaUnless last) := by
      cases last
      · exact (spelled_addressOf _ steps).append (by decide)
      · rw [commaUnless, if_pos rfl, String.append_empty]
        exact spelled_addressOf _ steps
    have other : after? rowStart (groupEntry table.base last group) = none := by
      unfold groupEntry
      simp only [String.append_assoc]
      exact after?_append_eq_none _ _ _ (by decide) (by decide)
    have spelledEntry := opens.append entry
    rw [← line] at spelledEntry
    exact spelledEntry.line other
  case closing => decide

theorem spelled_topLines (spelled : TableSpelled table) :
    ∀ line ∈ topLines table, SpelledLine line := by
  have opens : Opens "OS_FLASH_MEM IoPinsHdr " := by decide
  have symbol := spelled_identifier _ (isIdentifier_append _ "_hdr" spelled.base (by decide))
  have list := spelled_identifier (groupListSymbol table.base)
    (isIdentifier_append _ "_group_list" spelled.base (by decide))
  have equals : Closes (" = " ++ "\x7b") ∧ Opens (" = " ++ "\x7b") := by decide
  have size : Closes ", sizeof(" ∧ Opens ", sizeof(" := by decide
  have value := equals.1.append equals.2 (list.append (size.1.append size.2
    (list.append (by decide : Closes (")/sizeof(PinGroupHdr*)" ++ ("\x7d" ++ ";"))))))
  have line : topLine table.base = "OS_FLASH_MEM IoPinsHdr " ++ ((table.base ++ "_hdr") ++
      ((" = " ++ "\x7b") ++ (groupListSymbol table.base ++ (", sizeof(" ++
        (groupListSymbol table.base ++ (")/sizeof(PinGroupHdr*)" ++ ("\x7d" ++ ";"))))))) := by
    have assign : "_hdr = " = "_hdr" ++ " = " := rfl
    unfold topLine braced
    rw [assign]
    simp only [String.append_assoc]
  have top : SpelledLine (topLine table.base) := by
    rw [line]
    exact spelledLine_of_start 'O' rfl (by decide) (opens.append (symbol.append value))
  rw [topLines_eq]
  simp only [List.forall_mem_append, List.forall_mem_singleton]
  exact ⟨spelledLine_sectionComment _, top⟩

theorem spelled_headDefinitions (spelled : TableSpelled table) :
    ∀ line ∈ headsSection table (headDefinition table.base), SpelledLine line := by
  have opens : Opens headStart := by decide
  have equals : Closes " = " ∧ Opens " = " := by decide
  apply forall_mem_headsSection
  case comment => exact spelledLine_sectionComment _
  case heads =>
    intro head member
    obtain ⟨tag, pin⟩ := spelled.heads head member
    have symbol := spelled_identifier _ (isIdentifier_tagSymbol _ _ spelled.base tag)
    have value := (spelled_addressOf _ pin.steps).append (by decide : Closes ";")
    rw [headDefinition_eq]
    exact spelledLine_of_start 'O' rfl (by decide)
      (opens.append (symbol.append (equals.1.append equals.2 value)))

theorem spelled_deviceSource (spelled : TableSpelled table) :
    ∀ line ∈ deviceSource table, SpelledLine line := by
  have definitions : ∀ line ∈ table.groups.flatMap groupDefinitions, SpelledLine line := by
    intro line member
    obtain ⟨group, isGroup, isLine⟩ := List.mem_flatMap.1 member
    exact spelled_groupDefinitions (spelled.rows group isGroup) line isLine
  rw [deviceSource]
  simp only [List.forall_mem_append]
  exact ⟨⟨⟨⟨definitions, spelled_tableLines spelled⟩, spelled_groupListLines spelled⟩,
    spelled_topLines spelled⟩, spelled_headDefinitions spelled⟩

end Table

section Wiring

variable {wiring : Wiring}

/-- The names in the wiring are identifiers, and so are the symbols of the buses. -/
structure WiringSpelled (wiring : Wiring) : Prop where
  buses : ∀ bus ∈ wiring.buses, isIdentifier bus.symbol = true
  pins : ∀ chip ∈ wiring.chips, chip.pin.WellNamed
  chipDrivers : ∀ chip ∈ wiring.chips, isIdentifier chip.driver = true
  drivers : ∀ driver ∈ wiring.drivers, isIdentifier driver = true

theorem spelled_driverLines (driver : String) (identifier : isIdentifier driver = true) :
    ∀ line ∈ driverLines driver, SpelledLine line := by
  have parts : ∀ entry ∈ entryPoints, (Spelled entry.result ∧ Spelled entry.parameters) ∧
      entry.result.toList.head? ≠ some ' ' ∧ entry.result.toList ≠ [] ∧
      entry.suffix.toList.all isIdentifierChar = true := by
    decide
  have blank : Closes " " ∧ Opens " " := by decide
  have bracket : Closes "(" ∧ Opens "(" := by decide
  rw [driverLines_eq]
  simp only [List.forall_mem_append]
  refine ⟨spelledLine_sectionComment _, List.forall_mem_map.2 fun entry isEntry => ?_⟩
  obtain ⟨⟨result, parameters⟩, first, filled, suffix⟩ := parts entry isEntry
  have name : Spelled (entry.name driver) :=
    spelled_identifier _ (isIdentifier_append _ _ identifier suffix)
  have closing := parameters.append (by decide : Closes (")" ++ ";"))
  obtain ⟨c, rest, listed⟩ := List.exists_cons_of_ne_nil filled
  rw [listed, List.head?_cons, Ne, Option.some.injEq] at first
  exact spelledLine_of_start c (by rw [listed]; rfl) first (result.append (blank.1.append blank.2
    (name.append (bracket.1.append bracket.2 closing))))

theorem spelled_header_ending (spelled : WiringSpelled wiring) :
    ∀ line ∈ (ending wiring).header, SpelledLine line := by
  have object : ∀ category symbol, isIdentifier symbol = true →
      SpelledLine (Category.declarationLine [] category symbol) := fun category symbol identifier =>
    spelled_declarationLine category symbol identifier [] fun _ none => absurd none List.not_mem_nil
  have drivers : ∀ line ∈ wiring.drivers.flatMap driverLines, SpelledLine line := by
    intro line member
    obtain ⟨driver, isDriver, isLine⟩ := List.mem_flatMap.1 member
    exact spelled_driverLines driver (spelled.drivers driver isDriver) line isLine
  have comment := spelledLine_sectionComment
  rw [header_ending]
  simp only [List.forall_mem_append]
  refine ⟨⟨⟨⟨⟨⟨⟨⟨⟨⟨comment _, by decide⟩, comment _⟩, ?buses⟩, comment _⟩,
    by decide⟩, comment _⟩, ?chips⟩, drivers⟩, comment _⟩, by decide⟩
  case buses => exact List.forall_mem_map.2 fun bus isBus => object _ _ (spelled.buses bus isBus)
  case chips =>
    exact List.forall_mem_map.2 fun chip isChip =>
      object _ _ (spelled.pins chip isChip).busDeviceSymbol

/-- A record that is written as one line is spelled if its symbol and its entries are. -/
theorem spelled_recordLine (type : String) (isType : isIdentifier type = true)
    (record : SourceRecord) (symbol : isIdentifier record.symbol = true)
    (entries : ∀ entry ∈ record.entries, Spelled entry) :
    SpelledLine (recordLine type record) := by
  have name := spelled_identifier _ symbol
  have blank : Closes " " ∧ Opens " " := by decide
  have equals : Closes (" = " ++ "\x7b") ∧ Opens (" = " ++ "\x7b") := by decide
  have values := (spelled_commaList _ entries).append (by decide : Closes ("\x7d" ++ ";"))
  have line : recordLine type record = type ++ (" " ++ (record.symbol ++ ((" = " ++ "\x7b") ++
      (commaList record.entries ++ ("\x7d" ++ ";"))))) := by
    unfold recordLine braced
    simp only [String.append_assoc]
  obtain ⟨c, first, letter, -⟩ := start_of_isIdentifier _ isType
  rw [line]
  exact spelledLine_of_start c first (ne_blank_of_isIdentifierChar c letter)
    ((spelled_identifier _ isType).append (blank.1.append blank.2
      (name.append (equals.1.append equals.2 values))))

theorem spelled_busReference (spelled : WiringSpelled wiring) (position : Nat) :
    Spelled (referenceTo (wiring.buses[position]?.map Bus.symbol)) := by
  apply spelled_referenceTo
  intro path found
  obtain ⟨bus, there, rfl⟩ := Option.map_eq_some_iff.1 found
  exact steps_identifier _ (spelled.buses bus (List.mem_of_getElem? there))

theorem spelled_previousReference (spelled : WiringSpelled wiring) (position : Nat) :
    Spelled (wiring.previousReference position) := by
  cases position with
  | zero => exact (by decide : Spelled nullReference)
  | succ position => exact spelled_busReference spelled position

theorem spelled_chipReference (spelled : WiringSpelled wiring) (position : Option Nat) :
    Spelled (referenceTo ((position.bind fun found => wiring.chips[found]?).map Chip.symbol)) := by
  apply spelled_referenceTo
  intro path found
  obtain ⟨chip, there, rfl⟩ := Option.map_eq_some_iff.1 found
  obtain ⟨place, -, isThere⟩ := Option.bind_eq_some_iff.1 there
  exact steps_identifier _ (spelled.pins chip (List.mem_of_getElem? isThere)).busDeviceSymbol

theorem spelled_busRecords (spelled : WiringSpelled wiring) :
    ∀ line ∈ (busRecords wiring).map (recordLine "PinsBus"), SpelledLine line := by
  have kind : ∀ kind : BusKind, Spelled kind.symbol := by
    intro kind
    cases kind <;> decide
  refine List.forall_mem_map.2 fun record member => ?_
  obtain ⟨position, inside, rfl⟩ := List.mem_mapIdx.1 member
  have type : isIdentifier "PinsBus" = true := by decide
  have symbol := spelled.buses _ (List.getElem_mem inside)
  have head : Spelled (referenceTo ((wiring.headOf? wiring.buses[position]).map Chip.symbol)) :=
    spelled_chipReference spelled (some _)
  have entries : ∀ entry ∈ (busRecord wiring position wiring.buses[position]).entries,
      Spelled entry := by
    simp only [busRecord, List.forall_mem_cons, List.not_mem_nil, false_implies, implies_true,
      and_true]
    exact ⟨kind _, head, spelled_previousReference spelled position⟩
  exact spelled_recordLine "PinsBus" type (busRecord wiring position wiring.buses[position]) symbol
    entries

theorem spelled_chipRecords (spelled : WiringSpelled wiring) :
    ∀ line ∈ (chipRecords wiring).map (recordLine "PinsBusDevice"), SpelledLine line := by
  refine List.forall_mem_map.2 fun record member => ?_
  obtain ⟨chip, isChip, rfl⟩ := List.mem_map.1 member
  have pin := spelled.pins chip isChip
  have entry : ∀ name, name.toList.all isIdentifierChar = true →
      Spelled (addressOf (chip.driver ++ name)) := fun name plain =>
    spelled_addressOf _ (steps_identifier _
      (isIdentifier_append _ _ (spelled.chipDrivers chip isChip) plain))
  have type : isIdentifier "PinsBusDevice" = true := by decide
  have entries : ∀ held ∈ (chipRecord wiring chip).entries, Spelled held := by
    simp only [chipRecord, List.forall_mem_cons, List.not_mem_nil, false_implies, implies_true,
      and_true]
    exact ⟨spelled_addressOf _ pin.steps, spelled_busReference spelled _,
      spelled_chipReference spelled _, entry _ (by decide), entry _ (by decide),
      entry _ (by decide), entry _ (by decide)⟩
  exact spelled_recordLine "PinsBusDevice" type (chipRecord wiring chip) pin.busDeviceSymbol entries

theorem spelled_initializerLines (spelled : WiringSpelled wiring) :
    ∀ line ∈ initializerLines wiring, SpelledLine line := by
  have buses : ∀ line ∈ wiring.buses.map busCall, SpelledLine line := by
    refine List.forall_mem_map.2 fun bus isBus => ?_
    have opens : Opens "    pins_init_bus(" := by decide
    have argument := spelled_addressOf _ (steps_identifier _ (spelled.buses bus isBus))
    unfold busCall
    rw [String.append_assoc]
    exact (opens.append (argument.append (by decide))).line
      (after?_append_eq_none _ _ _ (by decide) (by decide))
  have blanks : Opens "    " := by decide
  have drivers : ∀ line ∈ wiring.drivers.map driverCall, SpelledLine line := by
    refine List.forall_mem_map.2 fun driver isDriver => ?_
    have name := isIdentifier_append _ "_initialize_driver" (spelled.drivers driver isDriver)
      (by decide)
    have line : driverCall driver = "    " ++ ((driver ++ "_initialize_driver") ++ "();") := by
      have closing : "_initialize_driver();" = "_initialize_driver" ++ "();" := by decide
      unfold driverCall
      rw [closing]
      simp only [String.append_assoc]
    rw [line]
    exact (blanks.append ((spelled_identifier _ name).append (by decide))).line
      (not_row_indented _ _ name)
  have chips : ∀ line ∈ wiring.chips.map chipCall, SpelledLine line := by
    refine List.forall_mem_map.2 fun chip isChip => ?_
    have name := isIdentifier_append _ "_initialize" (spelled.chipDrivers chip isChip) (by decide)
    have bracket : Closes "(" ∧ Opens "(" := by decide
    have argument := (spelled_addressOf _
      (steps_identifier _ (spelled.pins chip isChip).busDeviceSymbol)).append
        (by decide : Closes ");")
    have line : chipCall chip = "    " ++ ((chip.driver ++ "_initialize") ++ ("(" ++
        (addressOf chip.symbol ++ ");"))) := by
      have opening : "_initialize(" = "_initialize" ++ "(" := by decide
      unfold chipCall
      rw [opening]
      simp only [String.append_assoc]
    rw [line]
    exact (blanks.append ((spelled_identifier _ name).append
      (bracket.1.append bracket.2 argument))).line (not_row_indented _ _ name)
  simp only [initializerLines, List.forall_mem_append]
  exact ⟨⟨⟨⟨by decide, buses⟩, drivers⟩, chips⟩, by decide⟩

theorem spelled_busSource (spelled : WiringSpelled wiring) :
    ∀ line ∈ busSource wiring, SpelledLine line := by
  have comment := spelledLine_sectionComment
  have main : ∀ line ∈ [mainRecord wiring].map (recordLine "PinsDeviceBus"), SpelledLine line := by
    refine List.forall_mem_map.2 (List.forall_mem_singleton.2 ?_)
    have type : isIdentifier "PinsDeviceBus" = true := by decide
    have symbol : isIdentifier deviceBusSymbol = true := by decide
    exact spelled_recordLine _ type _ symbol
      (List.forall_mem_singleton.2 (spelled_previousReference spelled _))
  rw [busSource_eq]
  simp only [List.forall_mem_append]
  exact ⟨⟨⟨⟨⟨⟨⟨⟨⟨by decide, comment _⟩, spelled_busRecords spelled⟩, comment _⟩, main⟩,
    comment _⟩, spelled_chipRecords spelled⟩, comment _⟩, spelled_initializerLines spelled⟩,
    by decide⟩

end Wiring

end Listing

end PinTable
