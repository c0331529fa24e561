import PinTable.Proofs.DeviceTable
import PinTable.Proofs.Listing.DeviceText

set_option autoImplicit false

/- The lists of pins by tag that are read in the block of a device. The walk from the head of a tag
visits the rows of its pins, the last declared first. It is found by adding the declared pins one at
a time, since each row is linked to rows before it only. -/
namespace PinTable.Listing

open Reading
open Declared (pinsWith linksAfter)

/-- The rows of the table in a text, as members of the structure of a device. -/
def membersIn (base text : String) : List SourceRecord :=
  (tableIn text).flatMap fun group => group.2.map fun row =>
    ⟨base ++ "." ++ group.1.name ++ "." ++ row.name, row.entries⟩

/-- The links of the rows: the sixth entry of each refers to the next. -/
def tagLinks (base text : String) : Links String SourceRecord :=
  symbolLinks SourceRecord.symbol (fun row => row.entries[5]?) (membersIn base text)

/-- What a text shows of the tags of a device. -/
structure ShowsTags (text : String) (device : Device) : Prop where
  /-- Every pin has a row, in the order of declaration. -/
  rows : (membersIn device.base text).map SourceRecord.symbol =
    device.declared.map fun pin => pin.pin.member
  rowsOnce : ((membersIn device.base text).map SourceRecord.symbol).Nodup
  /-- Every tag that occurs has one head, and there are no others. -/
  heads : (headsIn text).map Definition.symbol =
    (device.declared.filterMap Declared.tag).eraseDups.map (tagSymbol device.base)
  headsOnce : ((headsIn text).map Definition.symbol).Nodup
  /-- The walk from the head of a tag visits its pins once each, the last declared first, and
  ends. -/
  lists : ∀ tag ∈ device.declared.filterMap Declared.tag,
    ∃ start, ⟨tagSymbol device.base tag, start⟩ ∈ headsIn text ∧
      ∃ rows, Walk (tagLinks device.base text) nullReference start rows ∧
        rows.map SourceRecord.symbol =
          (pinsWith tag device.declared).reverse.map QualifiedPin.member ∧
        (rows.map SourceRecord.symbol).Nodup
  /-- A pin without a tag is linked to none. -/
  unlinked : ∀ pin ∈ device.declared, pin.tag = none → ∃ row ∈ membersIn device.base text,
    row.symbol = pin.pin.member ∧ row.entries[5]? = some nullReference
  /-- A pin without a tag is on no list. -/
  unlisted : ∀ pin ∈ device.declared, pin.tag = none → ∀ head ∈ headsIn text, ∀ rows,
    Walk (tagLinks device.base text) nullReference head.value rows →
      pin.pin.member ∉ rows.map SourceRecord.symbol

def memberOf (row : Row) : SourceRecord := ⟨row.pin.member, (readingOf row).entries⟩

section Walks

variable {rows : List Row} {declared : List Declared}

theorem symbols_memberOf (linked : rows.map (fun row => (row.pin, row.next)) =
    linksAfter [] declared) :
    (rows.map memberOf).map SourceRecord.symbol = declared.map fun pin => pin.pin.member := by
  have pins := congrArg (List.map fun link => link.1.member) linked
  have declaredPins := congrArg (List.map QualifiedPin.member)
    (Declared.map_fst_linksAfter [] declared)
  rw [List.map_map] at pins
  rw [List.map_map, List.map_map] at declaredPins
  rw [List.map_map]
  exact pins.trans declaredPins

/-- The walk from the last of the first pins with a tag visits those pins. -/
theorem walk_memberOf (linked : rows.map (fun row => (row.pin, row.next)) = linksAfter [] declared)
    (distinct : ((rows.map memberOf).map SourceRecord.symbol).Nodup) (tag : String)
    (front back : List Declared) (split : declared = front ++ back) :
    ∃ visited, Walk (symbolLinks SourceRecord.symbol (fun row => row.entries[5]?)
        (rows.map memberOf)) nullReference
        (QualifiedPin.reference (pinsWith tag front).getLast?) visited ∧
      visited.map SourceRecord.symbol = (pinsWith tag front).reverse.map QualifiedPin.member := by
  induction front using List.reverseRecOn generalizing back with
  | nil => exact ⟨[], .stop, rfl⟩
  | append_singleton front pin ih =>
      rw [List.append_assoc, List.singleton_append] at split
      obtain ⟨visited, walk, symbols⟩ := ih (pin :: back) split
      -- The pin that is declared last is visited first, and leads to the walk that is there.
      by_cases same : pin.tag = some tag
      · have link : (pin.pin, (pinsWith tag front).getLast?) ∈
            rows.map fun row => (row.pin, row.next) := by
          have inside := Declared.mem_linksAfter front back pin
          rwa [Declared.linkAfter, same, Option.bind_some, ← split, ← linked] at inside
        obtain ⟨row, isRow, facts⟩ := List.mem_map.1 link
        obtain ⟨isPin, isNext⟩ := Prod.mk.inj facts
        have leads := symbolLinks_of_mem SourceRecord.symbol (fun row => row.entries[5]?)
          (rows.map memberOf) distinct (memberOf row) (List.mem_map_of_mem isRow) _ rfl
        rw [Declared.pinsWith_concat_self tag front pin same, List.getLast?_concat,
          List.reverse_concat, List.map_cons, ← isPin]
        rw [← isNext] at walk
        refine ⟨memberOf row :: visited, .step leads walk, ?_⟩
        rw [List.map_cons, symbols]
        rfl
      · rw [Declared.pinsWith_concat_other tag front pin same]
        exact ⟨visited, walk, symbols⟩

end Walks

/-- What a pin of a device has to be like for the rows to be read: the names are identifiers, and
what is quoted is of one line. -/
structure PinNamed (signals : SignalIndex) (pin : Pin) : Prop where
  name : isIdentifier pin.name = true
  tag : ∀ tag ∈ pin.tag, isIdentifier tag = true
  device : ∀ reference ∈ pin.device, Unbroken reference
  signal : ∀ reference ∈ signals.referenceTo? pin.name, Unbroken reference

instance (signals : SignalIndex) (pin : Pin) : Decidable (PinNamed signals pin) :=
  decidable_of_iff (isIdentifier pin.name = true ∧ (∀ tag ∈ pin.tag, isIdentifier tag = true) ∧
      (∀ reference ∈ pin.device, Unbroken reference) ∧
      ∀ reference ∈ signals.referenceTo? pin.name, Unbroken reference)
    ⟨fun ⟨name, tag, device, signal⟩ => ⟨name, tag, device, signal⟩,
      fun named => ⟨named.name, named.tag, named.device, named.signal⟩⟩

/-- What a device has to be like for its block to be read. -/
structure DeviceNamed (signals : SignalIndex) (device : Device) : Prop where
  name : isIdentifier device.name = true
  base : isIdentifier device.base = true
  pins : ∀ group ∈ device.groups, ∀ pin ∈ group.pins, PinNamed signals pin

section Named

variable {signals : SignalIndex} {device : Device}

theorem declared_named (named : DeviceNamed signals device) (pin : Declared)
    (member : pin ∈ device.declared) : isIdentifier pin.pin.base = true ∧
      isIdentifier pin.pin.name = true ∧ ∀ tag ∈ pin.tag, isIdentifier tag = true := by
  obtain ⟨group, isGroup, isPin⟩ := List.mem_flatMap.1 member
  obtain ⟨declared, isDeclared, rfl⟩ := List.mem_map.1 isPin
  have names := named.pins group isGroup declared isDeclared
  exact ⟨named.base, names.name, names.tag⟩

theorem word_declared (named : DeviceNamed signals device) (pin : QualifiedPin)
    (member : pin ∈ device.declared.map Declared.pin) : Word pin.member := by
  obtain ⟨declared, isDeclared, rfl⟩ := List.mem_map.1 member
  obtain ⟨base, name, _⟩ := declared_named named declared isDeclared
  exact word_member _ (word_of_isIdentifier _ base) (word_of_isIdentifier _ name)

theorem unbroken_deviceSymbol (base reference : String) (baseUnbroken : Unbroken base)
    (unbroken : Unbroken reference) : Unbroken (deviceSymbol base reference) := by
  unfold deviceSymbol
  simp only [unbroken_append]
  refine ⟨⟨baseUnbroken, by decide⟩, ?_⟩
  intro member
  rw [String.toList_map] at member
  obtain ⟨c, isHere, same⟩ := List.mem_map.1 member
  split at same
  · cases same
  · rw [same] at isHere
    exact unbroken isHere

theorem tableWorded (named : DeviceNamed signals device) :
    TableWorded (DeviceTable.ofDevice signals device) := by
  have follows := DeviceTable.ofDevice_follows signals device
  have base := word_of_isIdentifier _ named.base
  constructor
  case title => exact unbroken_uppercase _ named.name
  case base => exact base
  case rows =>
    intro table isTable row isRow
    obtain ⟨group, isGroup, _, made⟩ :=
      DeviceTable.exists_group_of_mem_groupsOf _ _ _ _ table isTable
    obtain ⟨pin, isPin, linked, same⟩ := made row isRow
    have names := named.pins group isGroup pin isPin
    -- A row refers to another row of the device only.
    have known : ∀ next ∈ row.next, Word next.member := by
      intro next isNext
      have inside : (row.pin, some next) ∈ linksAfter [] device.declared := by
        rw [← DeviceTable.links_ofDevice signals device, ← isNext]
        exact List.mem_map_of_mem (List.mem_flatMap.2 ⟨table, isTable, isRow⟩)
      exact word_declared named next (Declared.mem_of_mem_linksAfter [] _ _ _ inside)
    refine ⟨?_, ?_, known, ?_, ?_⟩ <;> rw [same]
    · exact base
    · exact word_of_isIdentifier _ names.name
    · exact names.signal
    · intro symbol isSymbol
      obtain ⟨reference, isReference, rfl⟩ := Option.map_eq_some_iff.1 isSymbol
      exact unbroken_deviceSymbol _ _ base.unbroken (names.device reference isReference)
  case tags =>
    intro head isHead
    have inside : head.1 ∈ (DeviceTable.ofDevice signals device).tags.headPins.map Prod.fst :=
      List.mem_map_of_mem isHead
    rw [follows.map_headPins, Declared.map_fst_tagged, List.mem_eraseDups] at inside
    obtain ⟨pin, isPin, isTag⟩ := List.mem_filterMap.1 inside
    exact word_of_isIdentifier _ ((declared_named named pin isPin).2.2 _ isTag)
  case heads =>
    rintro ⟨tag, pin⟩ isHead
    have last := follows.getLast?_of_mem_headPins tag pin isHead
    rw [Declared.itemsOf_tagged] at last
    obtain ⟨declared, isDeclared, rfl⟩ := List.mem_map.1 (List.mem_of_getLast? last)
    exact word_declared named _ (List.mem_map_of_mem (List.mem_filter.1 isDeclared).1)

/-- The rows in the block of a device are those of its table. -/
theorem membersIn_deviceSource (named : DeviceNamed signals device) :
    membersIn device.base (textOf (deviceSource (DeviceTable.ofDevice signals device))) =
      (DeviceTable.ofDevice signals device).rows.map memberOf := by
  rw [membersIn, tableIn_deviceSource (tableWorded named), DeviceTable.rows, List.flatMap_map,
    List.map_flatMap]
  apply List.flatMap_congr
  intro table isTable
  obtain ⟨group, _, kind, made⟩ := DeviceTable.exists_group_of_mem_groupsOf _ _ _ _ table isTable
  rw [groupReading, List.map_map]
  apply List.map_congr_left
  intro row isRow
  obtain ⟨pin, _, linked, rfl⟩ := made row isRow
  rw [Function.comp_apply, headingOf, kind]
  rfl

/-- The pins of a device have different members if they differ in kind or name. -/
theorem members_nodup (named : DeviceNamed signals device)
    (distinct : (device.groups.flatMap fun group => group.pins.map fun pin =>
      (group.kind, pin.name)).Nodup) :
    (device.declared.map fun pin => pin.pin.member).Nodup := by
  have pairs : device.declared.map (fun pin => (pin.pin.kind, pin.pin.name)) =
      device.groups.flatMap fun group => group.pins.map fun pin => (group.kind, pin.name) := by
    rw [Device.declared, List.map_flatMap]
    apply List.flatMap_congr
    intro group _
    rw [List.map_map]
    rfl
  rw [← pairs] at distinct
  have dot : ∀ pin ∈ device.declared, '.' ∉ pin.pin.base.toList := fun pin member =>
    not_mem_of_isIdentifier _ (declared_named named pin member).1 '.' rfl
  apply List.Nodup.map_on _ distinct.of_map
  intro one isOne other isOther same
  have pins := QualifiedPin.member_inj (dot one isOne) (dot other isOther) same
  exact List.inj_on_of_nodup_map distinct isOne isOther (by rw [pins])

theorem tagSymbol_inj {base one other : String} (same : tagSymbol base one = tagSymbol base other) :
    one = other := by
  unfold tagSymbol at same
  exact (String.append_right_inj _).1 ((String.append_left_inj _).1 same)

/-- The head of a tag leads to the last pin with the tag. -/
theorem mem_headsIn (named : DeviceNamed signals device) (tag : String)
    (occurs : tag ∈ device.declared.filterMap Declared.tag) :
    ⟨tagSymbol device.base tag, QualifiedPin.reference (pinsWith tag device.declared).getLast?⟩ ∈
      headsIn (textOf (deviceSource (DeviceTable.ofDevice signals device))) := by
  have follows := DeviceTable.ofDevice_follows signals device
  rw [← List.mem_eraseDups, ← Declared.map_fst_tagged, ← follows.map_headPins] at occurs
  obtain ⟨⟨name, pin⟩, isHead, rfl⟩ := List.mem_map.1 occurs
  have last := follows.getLast?_of_mem_headPins name pin isHead
  rw [Declared.itemsOf_tagged] at last
  rw [headsIn_deviceSource (tableWorded named), last]
  exact List.mem_map_of_mem isHead

theorem symbols_headsIn (named : DeviceNamed signals device) :
    (headsIn (textOf (deviceSource (DeviceTable.ofDevice signals device)))).map
        Definition.symbol =
      (device.declared.filterMap Declared.tag).eraseDups.map (tagSymbol device.base) := by
  have tags := (DeviceTable.ofDevice_follows signals device).map_headPins
  rw [Declared.map_fst_tagged] at tags
  rw [headsIn_deviceSource (tableWorded named), ← tags, List.map_map, List.map_map]
  rfl

/-- Each head is that of a tag, and leads to the last pin with the tag. -/
theorem value_of_mem_headsIn (named : DeviceNamed signals device) (head : Definition)
    (member : head ∈ headsIn (textOf (deviceSource (DeviceTable.ofDevice signals device)))) :
    ∃ tag, head.value = QualifiedPin.reference (pinsWith tag device.declared).getLast? := by
  rw [headsIn_deviceSource (tableWorded named)] at member
  obtain ⟨⟨tag, pin⟩, isHead, rfl⟩ := List.mem_map.1 member
  have last := (DeviceTable.ofDevice_follows signals device).getLast?_of_mem_headPins tag pin isHead
  rw [Declared.itemsOf_tagged] at last
  refine ⟨tag, ?_⟩
  rw [last]
  rfl

/-- The walk from the last pin with a tag visits the rows of the pins with the tag. -/
theorem walk_tagLinks (named : DeviceNamed signals device)
    (distinct : (device.declared.map fun pin => pin.pin.member).Nodup) (tag : String) :
    ∃ rows, Walk
        (tagLinks device.base (textOf (deviceSource (DeviceTable.ofDevice signals device))))
        nullReference (QualifiedPin.reference (pinsWith tag device.declared).getLast?) rows ∧
      rows.map SourceRecord.symbol =
        (pinsWith tag device.declared).reverse.map QualifiedPin.member := by
  have linked := DeviceTable.links_ofDevice signals device
  rw [← symbols_memberOf linked] at distinct
  rw [tagLinks, membersIn_deviceSource named]
  exact walk_memberOf linked distinct tag device.declared [] (List.append_nil _).symm

theorem showsTags (named : DeviceNamed signals device)
    (distinct : (device.groups.flatMap fun group => group.pins.map fun pin =>
      (group.kind, pin.name)).Nodup) :
    ShowsTags (textOf (deviceSource (DeviceTable.ofDevice signals device))) device := by
  have members := membersIn_deviceSource named
  have linked := DeviceTable.links_ofDevice signals device
  have symbols := symbols_memberOf linked
  have once := members_nodup named distinct
  constructor
  case rows => rw [members, symbols]
  case rowsOnce => rwa [members, symbols]
  case heads => exact symbols_headsIn named
  case headsOnce =>
    rw [symbols_headsIn named]
    exact (nodup_eraseDups _).map fun _ _ => tagSymbol_inj
  case lists =>
    intro tag occurs
    obtain ⟨rows, walk, visited⟩ := walk_tagLinks named once tag
    refine ⟨_, mem_headsIn named tag occurs, rows, walk, visited, ?_⟩
    have sublist : ((pinsWith tag device.declared).map QualifiedPin.member).Sublist
        (device.declared.map fun pin => pin.pin.member) := by
      rw [pinsWith, List.map_map]
      exact List.filter_sublist.map _
    rw [visited, List.map_reverse, List.nodup_reverse]
    exact once.sublist sublist
  case unlinked =>
    intro pin member untagged
    obtain ⟨front, back, split⟩ := List.append_of_mem member
    have link := Declared.mem_linksAfter front back pin
    rw [← split, ← linked, Declared.linkAfter, untagged, Option.bind_none] at link
    obtain ⟨row, isRow, facts⟩ := List.mem_map.1 link
    obtain ⟨isPin, isNext⟩ := Prod.mk.inj facts
    refine ⟨memberOf row, ?_, ?_, ?_⟩
    · rw [members]
      exact List.mem_map_of_mem isRow
    · rw [memberOf, isPin]
    · show some (QualifiedPin.reference row.next) = _
      rw [isNext]
      rfl
  case unlisted =>
    intro pin member untagged head isHead rows walk listed
    obtain ⟨tag, value⟩ := value_of_mem_headsIn named head isHead
    obtain ⟨others, otherWalk, visited⟩ := walk_tagLinks named once tag
    rw [value] at walk
    -- Every pin that is visited carries the tag of the head, and no two pins share a member.
    obtain rfl := walk.unique (symbolLinks_null _ _ _) otherWalk
    rw [visited] at listed
    obtain ⟨found, isFound, same⟩ := List.mem_map.1 listed
    obtain ⟨declared, isDeclared, rfl⟩ := List.mem_map.1 (List.mem_reverse.1 isFound)
    obtain ⟨isPin, isTag⟩ := List.mem_filter.1 isDeclared
    obtain rfl := List.inj_on_of_nodup_map once isPin member same
    rw [untagged] at isTag
    cases of_decide_eq_true isTag

end Named

/-- Whatever was written before, a device adds the same block, and the block shows its tags. -/
theorem tag_lists_of_device (signals : SignalIndex) (device : Device)
    (named : DeviceNamed signals device)
    (distinct : (device.groups.flatMap fun group => group.pins.map fun pin =>
      (group.kind, pin.name)).Nodup) :
    ∃ block, (∀ draft : Draft, (Draft.add signals draft device).written.sourceText =
        draft.written.sourceText ++ block) ∧ ShowsTags block device := by
  refine ⟨(deviceBlock signals device).sourceText, ?_, showsTags named distinct⟩
  intro draft
  exact Block.sourceText_append draft.written (deviceBlock signals device)

/-- A device whose two tags alternate over its groups. One of its pins has a signal, and one belongs
to a chip. -/
def deviceOfTwoTags : Device :=
  let pin (name : String) (tag device : Option String) : Pin :=
    ⟨name, 0, 0, tag, none, device, [], .root "io.json"⟩
  ⟨"board", "pins", [
    ⟨.inputs, [pin "button" (some "panel") none, pin "stop" none none,
      pin "door" (some "safety") none], .root "io.json"⟩,
    ⟨.timers, [], .root "io.json"⟩,
    ⟨.outputs, [pin "button" (some "panel") (some "spi.adc"), pin "lamp" (some "safety") none],
      .root "io.json"⟩,
    ⟨.inputs, [pin "key" (some "panel") none], .root "io.json"⟩], .root "io.json"⟩

theorem named_deviceOfTwoTags : DeviceNamed ⟨[("lamp", "&board.exp.lamp")]⟩ deviceOfTwoTags := by
  have pins : ∀ group ∈ deviceOfTwoTags.groups, ∀ pin ∈ group.pins,
      PinNamed ⟨[("lamp", "&board.exp.lamp")]⟩ pin := by
    decide +kernel
  exact ⟨by decide, by decide, pins⟩

theorem tag_lists_of_deviceOfTwoTags :
    DeviceNamed ⟨[("lamp", "&board.exp.lamp")]⟩ deviceOfTwoTags ∧
    (deviceOfTwoTags.groups.flatMap fun group => group.pins.map fun pin =>
      (group.kind, pin.name)).Nodup ∧
    ∃ block, (∀ draft : Draft,
        (Draft.add ⟨[("lamp", "&board.exp.lamp")]⟩ draft deviceOfTwoTags).written.sourceText =
          draft.written.sourceText ++ block) ∧ ShowsTags block deviceOfTwoTags := by
  have named := named_deviceOfTwoTags
  have distinct : (deviceOfTwoTags.groups.flatMap fun group => group.pins.map fun pin =>
      (group.kind, pin.name)).Nodup := by
    decide
  exact ⟨named, distinct, tag_lists_of_device _ deviceOfTwoTags named distinct⟩

end PinTable.Listing
