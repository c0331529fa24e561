import PinTable.Proofs.Listing.LayoutText
import PinTable.Proofs.Listing.TagLists

set_option autoImplicit false

namespace PinTable

namespace Device

/-- The kinds of a device's groups, each with the names of its pins, in the order of declaration. -/
def layout (device : Device) : List (String × List String) :=
  device.groups.map fun group => (group.kind.name, group.pins.map Pin.name)

end Device

namespace Listing

open Reading

/-- The layout of the groups in an initializer, by the names of their headings and rows. -/
def layoutIn (groups : List (Punctuated InitialGroup)) : List (String × List String) :=
  groups.map fun group =>
    (group.item.heading.item.name, group.item.rows.map fun row => row.item.name)

/-- The member of the structure that holds a group of an initializer, as `pins.inputs`. -/
def groupMember (base : String) (group : InitialGroup) : String :=
  base ++ "." ++ group.heading.item.name

/-- What the groups of an initializer show of a device. -/
structure InitialGroupsOf (device : Device) (groups : List (Punctuated InitialGroup)) : Prop where
  layout : layoutIn groups = device.layout
  /-- The header of a group counts its rows and refers to the first of them. -/
  headers : ∀ group ∈ groups, group.item.heading.item.entries =
    [natText group.item.rows.length, referenceTo (group.item.rows.head?.map fun row =>
      groupMember device.base group.item ++ "." ++ row.item.name)]
  /-- A row that is named after a pin holds the settings of that pin. -/
  settings : ∀ group ∈ groups, ∀ row ∈ group.item.rows, row.item.entries[3]? = some
    (device.base ++ "_" ++ group.item.heading.item.name ++ "_" ++ row.item.name ++ "_prm")
  headerCommas : ∀ group ∈ groups, group.item.heading.commas = 1
  rowCommas : ∀ group ∈ groups, Separated (group.item.rows.map Punctuated.commas)
  groupCommas : Separated (groups.map Punctuated.commas)

/-- What the two blocks of a device show of its groups and pins. -/
structure ShowsLayout (header source : String) (device : Device) : Prop where
  members : structTypeIn? header = some ⟨device.base ++ "_t", device.layout⟩
  rows : ∃ groups, initialGroupsAfter? (baseLine device.base) source = some groups ∧
    InitialGroupsOf device groups
  groupList : arrayAfter? (groupListLine device.base) source = some
    (device.groups.map fun group => "&" ++ device.base ++ "." ++ group.kind.name ++ ".hdr")

section Device

variable (signals : SignalIndex) (device : Device)

theorem base_ofDevice : (DeviceTable.ofDevice signals device).base = device.base := rfl

theorem layout_ofDevice :
    (DeviceTable.ofDevice signals device).groups.map layoutOf = device.layout := by
  have groups := DeviceTable.pins_groupsOf signals device.base device.groups TagChains.empty
  have names := congrArg
    (List.map fun group => (group.1.name, group.2.map QualifiedPin.name)) groups
  simp only [List.map_map, Function.comp_def] at names
  exact names

theorem groupReferences_ofDevice :
    (DeviceTable.ofDevice signals device).groups.map (groupReference device.base) =
      device.groups.map fun group => "&" ++ device.base ++ "." ++ group.kind.name ++ ".hdr" := by
  have groups := DeviceTable.pins_groupsOf signals device.base device.groups TagChains.empty
  have references := congrArg
    (List.map fun group => "&" ++ device.base ++ "." ++ group.1.name ++ ".hdr") groups
  simp only [List.map_map, Function.comp_def] at references
  exact references

variable {signals device} {group : GroupTable}
  (isGroup : group ∈ (DeviceTable.ofDevice signals device).groups)

include isGroup

theorem pin_of_mem_rows (row : Row) (isRow : row ∈ group.rows) :
    row.pin = ⟨device.base, group.kind, row.pin.name⟩ := by
  obtain ⟨declared, _, kind, made⟩ :=
    DeviceTable.exists_group_of_mem_groupsOf _ _ _ _ group isGroup
  obtain ⟨pin, _, linked, rfl⟩ := made row isRow
  rw [kind]
  rfl

theorem member_of_mem_rows (row : Row) (isRow : row ∈ group.rows) :
    row.pin.member = device.base ++ "." ++ group.kind.name ++ "." ++ row.pin.name := by
  rw [QualifiedPin.member, pin_of_mem_rows isGroup row isRow]

theorem settingsArray_of_mem_rows (row : Row) (isRow : row ∈ group.rows) :
    row.pin.settingsArray =
      device.base ++ "_" ++ group.kind.name ++ "_" ++ row.pin.name ++ "_prm" := by
  rw [QualifiedPin.settingsArray, QualifiedPin.joined, pin_of_mem_rows isGroup row isRow]

/-- The first of the rows that are read is the first row of the group. -/
theorem firstMember_eq :
    ((mapLast rowImage group.rows).head?.map fun row =>
        device.base ++ "." ++ group.kind.name ++ "." ++ row.item.name) =
      (group.rows.head?.map Row.pin).map QualifiedPin.member := by
  have members : (mapLast rowImage group.rows).map (fun row =>
      device.base ++ "." ++ group.kind.name ++ "." ++ row.item.name) =
        group.rows.map fun row => row.pin.member := by
    apply map_mapLast
    intro last row isRow
    rw [member_of_mem_rows isGroup row isRow]
    rfl
  rw [← List.head?_map, members, Option.map_map, List.head?_map]
  rfl

omit isGroup

theorem initialGroupsOf_ofDevice :
    InitialGroupsOf device (mapLast groupImage (DeviceTable.ofDevice signals device).groups) := by
  constructor
  case layout =>
    rw [layoutIn, ← layout_ofDevice signals device]
    apply map_mapLast
    intro last group _
    have names : (mapLast rowImage group.rows).map (fun row => row.item.name) =
        group.rows.map fun row => row.pin.name :=
      map_mapLast _ _ _ _ fun _ _ _ => rfl
    rw [layoutOf, ← names]
    rfl
  case headers =>
    apply forall_mem_mapLast
    intro last group isGroup
    have first := firstMember_eq isGroup
    have count : (mapLast rowImage group.rows).length = group.rows.length := length_mapLast _ _
    show [natText group.rows.length, QualifiedPin.reference (group.rows.head?.map Row.pin)] = _
    rw [QualifiedPin.reference, ← first, ← count]
    rfl
  case settings =>
    apply forall_mem_mapLast
    intro last group isGroup
    apply forall_mem_mapLast
    intro last row isRow
    exact congrArg some (settingsArray_of_mem_rows isGroup row isRow)
  case headerCommas => exact forall_mem_mapLast _ _ _ fun _ _ _ => rfl
  case rowCommas =>
    exact forall_mem_mapLast _ _ _ fun _ group _ =>
      separated_mapLast rowImage Punctuated.commas (fun _ _ => rfl) group.rows
  case groupCommas =>
    exact separated_mapLast groupImage Punctuated.commas (fun _ _ => rfl) _

theorem showsLayout (named : DeviceNamed signals device) :
    ShowsLayout (textOf (deviceHeader (DeviceTable.ofDevice signals device)))
      (textOf (deviceSource (DeviceTable.ofDevice signals device))) device := by
  have worded := tableWorded named
  have members := structTypeIn?_deviceHeader worded
  have groups := initialGroupsAfter?_deviceSource worded
  have groupList := arrayAfter?_deviceSource worded
  rw [base_ofDevice, layout_ofDevice] at members
  rw [base_ofDevice] at groups
  rw [base_ofDevice, groupReferences_ofDevice] at groupList
  exact ⟨members, ⟨_, groups, initialGroupsOf_ofDevice⟩, groupList⟩

end Device

/-- Whatever was written before, a device adds the same blocks to the header and the source, and
both show the layout of the device. -/
theorem layout_of_device (signals : SignalIndex) (device : Device)
    (named : DeviceNamed signals device) :
    ∃ header source, (∀ draft : Draft,
        (Draft.add signals draft device).written.headerText = draft.written.headerText ++ header ∧
        (Draft.add signals draft device).written.sourceText = draft.written.sourceText ++ source) ∧
      ShowsLayout header source device := by
  refine ⟨_, _, ?_, showsLayout named⟩
  intro draft
  exact ⟨Block.headerText_append draft.written (deviceBlock signals device),
    Block.sourceText_append draft.written (deviceBlock signals device)⟩

/-- A device with a kind that is repeated behind an empty group. One of its pins has a signal, and
one has a tag. -/
def deviceOfRepeatedKind : Device :=
  let pin (name : String) (tag : Option String) : Pin :=
    ⟨name, 0, 0, tag, none, none, [], .root "io.json"⟩
  ⟨"board", "pins", [
    ⟨.inputs, [pin "door" none, pin "key" (some "panel")], .root "io.json"⟩,
    ⟨.timers, [], .root "io.json"⟩,
    ⟨.inputs, [pin "stop" none], .root "io.json"⟩], .root "io.json"⟩

theorem layout_of_deviceOfRepeatedKind :
    DeviceNamed ⟨[("key", "&board.exp.key")]⟩ deviceOfRepeatedKind ∧
    ∃ header source, (∀ draft : Draft,
        (Draft.add ⟨[("key", "&board.exp.key")]⟩ draft deviceOfRepeatedKind).written.headerText =
          draft.written.headerText ++ header ∧
        (Draft.add ⟨[("key", "&board.exp.key")]⟩ draft deviceOfRepeatedKind).written.sourceText =
          draft.written.sourceText ++ source) ∧
      ShowsLayout header source deviceOfRepeatedKind := by
  have pins : ∀ group ∈ deviceOfRepeatedKind.groups, ∀ pin ∈ group.pins,
      PinNamed ⟨[("key", "&board.exp.key")]⟩ pin := by
    decide +kernel
  have named : DeviceNamed ⟨[("key", "&board.exp.key")]⟩ deviceOfRepeatedKind :=
    ⟨by decide, by decide, pins⟩
  exact ⟨named, layout_of_device _ deviceOfRepeatedKind named⟩

end Listing

end PinTable
