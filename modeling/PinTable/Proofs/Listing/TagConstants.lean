import PinTable.Proofs.Listing.Constants
import PinTable.Proofs.Listing.Counterparts
import PinTable.Proofs.Listing.Titles

set_option autoImplicit false

namespace PinTable

/-- The pins of a device in order, each with its tag if no pin before has that tag. -/
structure IntroducesTags (device : Device) (entries : List (QualifiedPin × Option String)) :
    Prop where
  pins : entries.map Prod.fst = device.declared.map Declared.pin
  news : ∀ front pin back, device.declared = front ++ pin :: back →
    entries[front.length]? =
      some (pin.pin, if pin.tag ∈ front.map Declared.tag then none else pin.tag)
  tags : entries.filterMap Prod.snd = device.tags

theorem introducesTags (device : Device) :
    IntroducesTags device (Declared.newTagsAfter [] device.declared) := by
  constructor
  case pins => exact Declared.map_fst_newTagsAfter [] device.declared
  case tags => exact Declared.filterMap_snd_newTagsAfter device.declared
  case news =>
    intro front pin back split
    have before : (Declared.newTagsAfter [] front).length = front.length := by
      simpa using congrArg List.length (Declared.map_fst_newTagsAfter [] front)
    rw [split, Declared.newTagsAfter_append, ← before, List.getElem?_append_right (Nat.le_refl _),
      Nat.sub_self]
    rfl

theorem IntroducesTags.length_eq {device : Device} {entries : List (QualifiedPin × Option String)}
    (introduces : IntroducesTags device entries) : entries.length = device.declared.length := by
  have same := congrArg List.length introduces.pins
  rwa [List.length_map, List.length_map] at same

/-- The device tells which tags are new. -/
theorem IntroducesTags.unique {device : Device} {one other : List (QualifiedPin × Option String)}
    (first : IntroducesTags device one) (second : IntroducesTags device other) : one = other := by
  apply List.ext_getElem?
  intro position
  rcases Nat.lt_or_ge position device.declared.length with inside | outside
  · have split : device.declared = device.declared.take position ++
        device.declared[position] :: device.declared.drop (position + 1) := by
      rw [← List.drop_eq_getElem_cons inside, List.take_append_drop]
    have same := (first.news _ _ _ split).trans (second.news _ _ _ split).symm
    rwa [List.length_take_of_le (Nat.le_of_lt inside)] at same
  · rw [List.getElem?_eq_none (first.length_eq ▸ outside),
      List.getElem?_eq_none (second.length_eq ▸ outside)]

namespace Listing

open Reading

/-- The section on the heads of lists by tag, which is left out if there are none. -/
def headsLines (lines : List String) : List String :=
  if lines.isEmpty then [] else sectionComment headsTitle ++ lines

theorem headsTitle_ne_table (front : String) :
    headsTitle ≠ front ++ " IO configuration structure" :=
  ne_append_of_last _ _ _ 'e' rfl (by decide)

theorem headsTitle_ne_top (front : String) :
    headsTitle ≠ front ++ " IO configuration top header structure" :=
  ne_append_of_last _ _ _ 'e' rfl (by decide)

section Device

variable (signals : SignalIndex) (device : Device)

theorem map_fst_headPins :
    (DeviceTable.ofDevice signals device).tags.headPins.map Prod.fst = device.tags := by
  rw [(DeviceTable.ofDevice_follows signals device).map_headPins, Declared.map_fst_tagged]
  rfl

theorem isEmpty_tags_iff : (DeviceTable.ofDevice signals device).tags.isEmpty = true ↔
    ∀ pin ∈ device.declared, pin.tag = none := by
  rw [(DeviceTable.ofDevice_follows signals device).isEmpty_iff, Declared.tagged,
    List.filterMap_eq_nil_iff]
  simp only [Option.map_eq_none_iff]

omit signals in
theorem tags_eq_nil_iff : device.tags = [] ↔ ∀ pin ∈ device.declared, pin.tag = none := by
  rw [← List.filterMap_eq_nil_iff, List.eq_nil_iff_forall_not_mem, List.eq_nil_iff_forall_not_mem]
  simp only [Device.tags, List.mem_eraseDups]

theorem headsSection_eq (write : String × QualifiedPin → String) :
    headsSection (DeviceTable.ofDevice signals device) write =
      headsLines ((DeviceTable.ofDevice signals device).tags.headPins.map write) := by
  have same : (DeviceTable.ofDevice signals device).tags.isEmpty =
      ((DeviceTable.ofDevice signals device).tags.headPins.map write).isEmpty := by
    rw [Bool.eq_iff_iff, isEmpty_tags_iff, ← tags_eq_nil_iff, List.isEmpty_iff,
      List.map_eq_nil_iff, ← map_fst_headPins signals, List.map_eq_nil_iff]
  rw [headsSection, headsLines, same]

/-- The lists by tag have a title just if a pin has a tag. -/
theorem headsTitle_mem_iff :
    headsTitle ∈ headsTitles (DeviceTable.ofDevice signals device) ↔
      ∃ pin ∈ device.declared, pin.tag ≠ none := by
  have some : (∃ pin ∈ device.declared, pin.tag ≠ none) ↔
      ¬ (DeviceTable.ofDevice signals device).tags.isEmpty = true := by
    simp only [isEmpty_tags_iff, not_forall, exists_prop]
  rw [some, headsTitles]
  split
  · next none => exact iff_of_false List.not_mem_nil fun other => other none
  · next none => exact iff_of_true (List.mem_singleton_self _) none

theorem headsTitle_mem_header :
    headsTitle ∈ titlesAmong (deviceHeader (DeviceTable.ofDevice signals device)) ↔
      ∃ pin ∈ device.declared, pin.tag ≠ none := by
  have constants : headsTitle ≠ constantsTitle := by decide
  rw [titles_deviceHeader, ← headsTitle_mem_iff signals]
  simp only [List.mem_append, List.mem_cons, List.not_mem_nil, constants,
    headsTitle_ne_table, headsTitle_ne_top, or_false, false_or]

theorem headsTitle_mem_source :
    headsTitle ∈ titlesAmong (deviceSource (DeviceTable.ofDevice signals device)) ↔
      ∃ pin ∈ device.declared, pin.tag ≠ none := by
  have arrays : ∀ kind, headsTitle ≠ arraysTitle kind := by
    intro kind
    cases kind <;> decide
  have groups : headsTitle ≠ "List of pin type groups" := by decide
  rw [titles_deviceSource, ← headsTitle_mem_iff signals]
  simp only [tableTitles, List.mem_append, List.mem_cons, List.not_mem_nil, List.mem_map, groups,
    headsTitle_ne_table, headsTitle_ne_top, or_false, false_or]
  refine or_iff_right ?_
  rintro ⟨group, _, same⟩
  exact arrays _ same.symm

end Device

/-- What is read in the two texts of a device of its pins in order, each with its tag where that is
new. -/
structure TellsTags (header source : String) (device : Device)
    (entries : List (QualifiedPin × Option String)) : Prop where
  /-- The header defines the constant of each pin, and that of a new tag right behind. -/
  constants : constantsAmong (linesIn header) = entries.flatMap constantsOf
  /-- The header declares the heads of the tags in the order in which they are new. -/
  declared : (declarationsIn header).filterMap Category.head.symbol? =
    device.tags.map (tagSymbol device.base)
  /-- The source defines them in this order, too. -/
  defined : (headsIn source).map Definition.symbol = device.tags.map (tagSymbol device.base)

section Named

variable {signals : SignalIndex} {device : Device} (named : DeviceNamed signals device)

include named

theorem isIdentifier_of_mem_tags : ∀ tag ∈ device.tags, isIdentifier tag = true := by
  intro tag isTag
  obtain ⟨pin, isDeclared, has⟩ := List.mem_filterMap.1 (List.mem_eraseDups.1 isTag)
  exact (declared_named named pin isDeclared).2.2 tag has

theorem linesIn_deviceHeader :
    linesIn (textOf (deviceHeader (DeviceTable.ofDevice signals device))) =
      deviceHeader (DeviceTable.ofDevice signals device) ++ [""] :=
  linesIn_textOf _ (header_unbroken named)

theorem constantsAmong_deviceHeader :
    constantsAmong (linesIn (textOf (deviceHeader (DeviceTable.ofDevice signals device)))) =
      (Declared.newTagsAfter [] device.declared).flatMap constantsOf := by
  have names : ∀ pin ∈ device.declared, isIdentifier pin.pin.name = true :=
    fun pin isDeclared => (declared_named named pin isDeclared).2.1
  have unquoted := constants_unquoted signals names (isIdentifier_of_mem_tags named)
  have header := constants_deviceHeader unquoted
  rw [constantsAmong] at header
  rw [linesIn_deviceHeader named, constantsAmong, List.filterMap_append, header,
    constants_ofDevice]
  exact List.append_nil _

theorem heads_deviceHeader :
    (declarationsIn (textOf (deviceHeader (DeviceTable.ofDevice signals device)))).filterMap
        Category.head.symbol? = device.tags.map (tagSymbol device.base) := by
  have last : [""].filterMap declaredBy? = [] := rfl
  have objects : (deviceHeader (DeviceTable.ofDevice signals device)).filterMap declaredBy? =
      declaredObjects device := declarations_device named
  rw [declarationsIn, linesIn_deviceHeader named, List.filterMap_append, last, List.append_nil,
    objects]
  exact symbols_declaredObjects .head device

theorem tellsTags : TellsTags (textOf (deviceHeader (DeviceTable.ofDevice signals device)))
    (textOf (deviceSource (DeviceTable.ofDevice signals device))) device
    (Declared.newTagsAfter [] device.declared) :=
  ⟨constantsAmong_deviceHeader named, heads_deviceHeader named, symbols_headsIn named⟩

end Named

/-- Both files tell the tags of a device in the order of their first pins: the constants where the
pins are told, and the lists by tag at the end. Where the names are identifiers, this order is read
back from the texts. -/
theorem tag_order_of_device (signals : SignalIndex) (device : Device) :
    let table := DeviceTable.ofDevice signals device
    ∃ (entries : List (QualifiedPin × Option String)) (heads : List (String × QualifiedPin)),
      IntroducesTags device entries ∧ heads.map Prod.fst = device.tags ∧
      (∀ draft : Draft, (Draft.add signals draft device).written.header =
        draft.written.header ++ (typeLines table ++ declarationLines table ++
          headsLines (heads.map (headDeclaration device.base)) ++
          (sectionComment constantsTitle ++ (entries.flatMap constantsOf).map NameConstant.text))) ∧
      (∀ draft : Draft, (Draft.add signals draft device).written.source =
        draft.written.source ++ (table.groups.flatMap groupDefinitions ++ tableLines table ++
          groupListLines table ++ topLines table ++
          headsLines (heads.map (headDefinition device.base)))) ∧
      (headsTitle ∈ titlesAmong (deviceHeader table) ↔ ∃ pin ∈ device.declared, pin.tag ≠ none) ∧
      (headsTitle ∈ titlesAmong (deviceSource table) ↔
        ∃ pin ∈ device.declared, pin.tag ≠ none) ∧
      (DeviceNamed signals device → ∃ header source,
        (∀ draft : Draft,
          (Draft.add signals draft device).written.headerText = draft.written.headerText ++ header ∧
          (Draft.add signals draft device).written.sourceText =
            draft.written.sourceText ++ source) ∧
        TellsTags header source device entries) := by
  intro table
  refine ⟨_, _, introducesTags device, map_fst_headPins signals device, ?header, ?source,
    headsTitle_mem_header signals device, headsTitle_mem_source signals device, ?texts⟩
  case header =>
    intro draft
    rw [← headsSection_eq, ← constants_ofDevice signals]
    rfl
  case source =>
    intro draft
    rw [← headsSection_eq]
    rfl
  case texts =>
    intro named
    refine ⟨_, _, fun draft => ⟨?_, ?_⟩, tellsTags named⟩
    · exact Block.headerText_append draft.written (deviceBlock signals device)
    · exact Block.sourceText_append draft.written (deviceBlock signals device)

/-- The second tag is new between two pins with the first. -/
theorem tag_order_of_deviceOfTwoTags :
    let signals : SignalIndex := ⟨[("lamp", "&board.exp.lamp")]⟩
    DeviceNamed signals deviceOfTwoTags ∧ ∃ header source,
      (∀ draft : Draft,
        (Draft.add signals draft deviceOfTwoTags).written.headerText =
          draft.written.headerText ++ header ∧
        (Draft.add signals draft deviceOfTwoTags).written.sourceText =
          draft.written.sourceText ++ source) ∧
      constantsAmong (linesIn header) = [⟨"PINS_INPUTS_BUTTON", "button"⟩,
        ⟨"PINS_PANEL_GROUP", "panel"⟩, ⟨"PINS_INPUTS_STOP", "stop"⟩, ⟨"PINS_INPUTS_DOOR", "door"⟩,
        ⟨"PINS_SAFETY_GROUP", "safety"⟩, ⟨"PINS_OUTPUTS_BUTTON", "button"⟩,
        ⟨"PINS_OUTPUTS_LAMP", "lamp"⟩, ⟨"PINS_INPUTS_KEY", "key"⟩] ∧
      (declarationsIn header).filterMap Category.head.symbol? =
        ["pins_panel_group", "pins_safety_group"] ∧
      (headsIn source).map Definition.symbol = ["pins_panel_group", "pins_safety_group"] := by
  intro signals
  have named : DeviceNamed signals deviceOfTwoTags := named_deviceOfTwoTags
  have tags : deviceOfTwoTags.tags.map (tagSymbol deviceOfTwoTags.base) =
      ["pins_panel_group", "pins_safety_group"] := by
    decide +kernel
  obtain ⟨entries, _, introduces, _, _, _, _, _, told⟩ :=
    tag_order_of_device signals deviceOfTwoTags
  obtain ⟨header, source, added, tells⟩ := told named
  refine ⟨named, header, source, added, ?_, tells.declared.trans tags, tells.defined.trans tags⟩
  rw [tells.constants, introduces.unique (introducesTags deviceOfTwoTags)]
  decide +kernel

end Listing

end PinTable
