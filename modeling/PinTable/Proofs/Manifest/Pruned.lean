import PinTable.Proofs.Json.DistinctKeys
import PinTable.Proofs.Listing.Alike
import PinTable.Proofs.Manifest.Notices
import PinTable.Proofs.Manifest.Origin

set_option autoImplicit false

namespace PinTable

open Entries (find? keys)

/-- An attribute with this key and value sets a parameter. -/
def setsParameter (key : String) (value : Json) : Bool :=
  (Parameter.ofKey? key).isSome && value.integerLike?.isSome

/-- The entries of a pin that place it or set a parameter. -/
def keptEntries (entries : Entries Json) : Entries Json :=
  entries.filter fun entry => isStructural entry.1 || setsParameter entry.1 entry.2

namespace Json

def onItems (change : List Json → List Json) : Json → Json
  | array items => array (change items)
  | other => other

def onEntries (change : Entries Json → Entries Json) : Json → Json
  | object entries => object (change entries)
  | other => other

/-- The entries of known keys, with a change to the items of the array under one of them. -/
def knownEntries (known : List String) (key : String) (change : List Json → List Json)
    (entries : Entries Json) : Entries Json :=
  (entries.filter fun entry => known.contains entry.1).map fun entry =>
    (entry.1, if entry.1 = key then entry.2.onItems change else entry.2)

def prunedPin : Json → Json := onEntries keptEntries

def prunedGroupEntries : Entries Json → Entries Json :=
  knownEntries ["name", "pins"] "pins" fun pins => pins.map prunedPin

def prunedGroup : Json → Json := onEntries prunedGroupEntries

def prunedDevice : Json → Json :=
  onEntries (knownEntries ["name", "prefix", "groups"] "groups" fun groups =>
    (groups.filter isGroupOfKind).map prunedGroup)

/-- A document without the groups of no known kind, the attributes that set no parameter, and the
fields that are not looked at. -/
def pruned : Json → Json :=
  onEntries (knownEntries ["io"] "io" fun devices => devices.map prunedDevice)

section Known

variable {known : List String} {key : String} {change : List Json → List Json}
  {entries : Entries Json}

theorem find?_knownEntries (name : String) (isKnown : known.contains name = true) :
    find? name (knownEntries known key change entries) =
      (find? name entries).map fun value => if name = key then value.onItems change else value := by
  rw [knownEntries, Entries.find?_map name fun name (value : Json) =>
      if name = key then value.onItems change else value,
    Entries.find?_filter name _ entries fun _ => isKnown]

theorem find?_knownEntries_beside (name : String) (isKnown : known.contains name = true)
    (beside : name ≠ key) :
    find? name (knownEntries known key change entries) = find? name entries := by
  simp only [find?_knownEntries name isKnown, if_neg beside, Option.map_id']

theorem find?_knownEntries_array {items : List Json} (isKnown : known.contains key = true)
    (found : find? key entries = some (array items)) :
    find? key (knownEntries known key change entries) = some (array (change items)) := by
  rw [find?_knownEntries key isKnown, found, Option.map_some, if_pos rfl, onItems]

theorem find?_name_prunedGroupEntries :
    find? "name" (prunedGroupEntries entries) = find? "name" entries :=
  find?_knownEntries_beside "name" rfl (by decide)

end Known

end Json

theorem Pin.isSome_setting? (pin : Pin) (entry : Attribute) :
    (pin.setting? entry).isSome = setsParameter entry.key entry.value := by
  unfold setting? Attribute.setting setsParameter
  cases Parameter.ofKey? entry.key with
  | none => rfl
  | some parameter => cases entry.value.integerLike? <;> rfl

theorem attributesOf_keptEntries (entries : Entries Json) :
    attributesOf (keptEntries entries) =
      (attributesOf entries).filter fun entry => setsParameter entry.key entry.value := by
  simp only [attributesOf, keptEntries, List.filter_map, List.filter_filter]
  congr 1
  apply List.filter_congr
  intro entry _
  cases isStructural entry.1 <;> simp

/-- An attribute is found as the entry of its object is. -/
theorem Pin.attributeAt?_eq_find? (pin : Pin) (object : Entries Json) (key : String)
    (attributes : pin.attributes = attributesOf object) (free : isStructural key = false) :
    pin.attributeAt? key = find? key object := by
  have free' : ∀ value : Json, (!isStructural (key, value).1) = true := by simp [free]
  rw [← Entries.find?_filter key (fun entry => !isStructural entry.1) object free', attributeAt?,
    attributes, attributesOf]
  induction object.filter fun entry => !isStructural entry.1 with
  | nil => rfl
  | cons entry rest ih =>
      obtain ⟨known, value⟩ := entry
      rw [Entries.find?_cons, List.map_cons, List.find?_cons]
      by_cases same : known = key
      · simp [same]
      · simp only [beq_false_of_ne same, if_neg same]
        exact ih

/-- The pin of the entries that are kept, read at some place. -/
def Pin.kept (pin : Pin) (entries : Entries Json) (place : Location) : Pin :=
  { pin with attributes := attributesOf (keptEntries entries), location := place }

section Kept

variable {entries : Entries Json} {pin : Pin} (fields : pin.OfObject entries) (place : Location)

theorem Pin.warnings_kept : (pin.kept entries place).warnings = [] := by
  rw [Pin.warnings, List.filterMap_eq_nil_iff]
  intro entry member
  rw [Pin.kept, attributesOf_keptEntries, List.mem_filter, ← Pin.isSome_setting? pin entry,
    Pin.setting?_isSome_eq_complaint?_isNone] at member
  exact Option.isNone_iff_eq_none.1 member.2

include fields

theorem Pin.OfObject.kept : (pin.kept entries place).OfObject (keptEntries entries) := by
  have found (key : String) (structural : isStructural key = true) :
      find? key (keptEntries entries) = find? key entries :=
    Entries.find?_filter key _ entries fun _ => by simp [structural]
  constructor
  case name => exact (found "name" rfl).trans fields.name
  case tag => exact (found "group" rfl).trans fields.tag
  case driver => exact (found "driver" rfl).trans fields.driver
  case device => exact (found "device" rfl).trans fields.device
  case bank =>
    rw [fieldOr?, found "bank" rfl]
    exact fields.bank
  case addr =>
    rw [fieldOr?, found "addr" rfl]
    exact fields.addr
  case attributes => exact map_attributesOf _

theorem Pin.settings_kept :
    Settings.ofAttributes (pin.kept entries place) = Settings.ofAttributes pin := by
  have same : (attributesOf (keptEntries entries)).filterMap pin.setting? =
      pin.attributes.filterMap pin.setting? := by
    rw [attributesOf_keptEntries, fields.attributes_eq, List.filterMap_filter]
    apply List.filterMap_congr
    intro entry _
    rw [← Pin.isSome_setting? pin entry]
    cases pin.setting? entry <;> rfl
  exact congrArg Settings.mk same

/-- A clock line that is no integer counts as none. -/
theorem Pin.clockOf_kept (once : (keys entries).Nodup) :
    Device.clockOf (pin.kept entries place) = Device.clockOf pin := by
  have free : isStructural Parameter.sclk.key = false := by decide
  rw [Device.clockOf, Device.clockOf, Pin.attributeAt?_eq_find? pin entries _ fields.attributes_eq free,
    Pin.attributeAt?_eq_find? (pin.kept entries place) (keptEntries entries) _ rfl free, keptEntries,
    Entries.find?_filter_of_nodup _ _ _ once]
  cases find? Parameter.sclk.key entries with
  | none => rfl
  | some value =>
      simp only [Option.filter_some, free, Bool.false_or, setsParameter, Parameter.ofKey?_key,
        Option.isSome_some, Bool.true_and]
      cases integer : value.integerLike? <;> simp [integer]

theorem Pin.alike_kept (once : (keys entries).Nodup) : pin.Alike (pin.kept entries place) :=
  ⟨rfl, rfl, rfl, rfl, rfl, rfl, Pin.settings_kept fields place, Pin.clockOf_kept fields place once⟩

end Kept

/-- Items that tell of records are decoded after a change that keeps what each of them tells. -/
theorem exists_items_kept {β γ : Type} {tells : Json → γ → Prop} (step : Nat → Json → Decoded β)
    (change : Json → Json) (related : γ → β → Prop) {items : List Json} {records : List γ}
    (distinct : ∀ item ∈ items, item.DistinctKeys) (told : List.Forall₂ tells items records)
    (each : ∀ item record, item.DistinctKeys → tells item record →
      ∀ position, ∃ other, step position (change item) = .ok other ∧ related record other) :
    ∃ others, EachGives step 0 (items.map change) others ∧ List.Forall₂ related records others := by
  apply exists_eachGives_related
  rw [List.forall₂_map_left_iff]
  refine ((List.forall₂_and_left _ _).2 ⟨distinct, told⟩).imp ?_
  rintro item record ⟨itemDistinct, itemTells⟩
  exact each item record itemDistinct itemTells

section Levels

variable {place : Location} {value : Json} (distinct : value.DistinctKeys) (elsewhere : Location)

include distinct

theorem Pin.decode_prunedPin {device : String} {kind : PinKind} {pin : Pin}
    (decoded : Pin.decode device kind place value = .ok pin) :
    ∃ kept, Pin.decode device kind elsewhere value.prunedPin = .ok kept ∧
      pin.Alike kept ∧ kept.warnings = [] := by
  obtain ⟨entries, rfl, _, fields⟩ := (Pin.decode_eq_ok_iff ..).1 decoded
  have once := ((Json.distinctKeys_object_iff entries).1 distinct).1
  exact ⟨pin.kept entries elsewhere,
    (Pin.decode_eq_ok_iff ..).2 ⟨_, rfl, rfl, Pin.OfObject.kept fields elsewhere⟩,
    Pin.alike_kept fields elsewhere once, Pin.warnings_kept elsewhere⟩

theorem PinGroup.decode_prunedGroup {device : String} {group : PinGroup}
    (decoded : (PinGroup.decode device place value).result = .ok (some group)) :
    ∃ kept, (PinGroup.decode device elsewhere value.prunedGroup).result = .ok (some kept) ∧
      group.Alike kept ∧ kept.warnings = [] := by
  obtain ⟨entries, kindName, rfl, named, ⟨_, missing⟩ | ⟨kind, same, known, isGroup, isResult⟩⟩ :=
    (PinGroup.decode_eq_ok_iff ..).1 decoded
  · cases missing
  cases isResult
  obtain ⟨items, found, arePins, rfl, rfl⟩ := (PinGroup.decodePins_eq_ok_iff ..).1 isGroup
  obtain ⟨pins, gives, kept⟩ := exists_items_kept
    (fun position item =>
      Pin.decode device group.kind ((elsewhere.key "pins").index position) item)
    Json.prunedPin (fun pin kept => pin.Alike kept ∧ kept.warnings = [])
    ((Json.distinctKeys_array_iff items).1 (distinct.of_find? found)) arePins.unplaced
    fun item pin itemDistinct ⟨_, isPin⟩ _ => Pin.decode_prunedPin itemDistinct _ isPin
  obtain ⟨alike, silent⟩ := forall₂_and_right kept
  have isKept : PinGroup.decodePins device group.kind elsewhere (Json.prunedGroupEntries entries) =
      .ok ⟨group.kind, pins, elsewhere⟩ :=
    (PinGroup.decodePins_eq_ok_iff ..).2
      ⟨_, Json.find?_knownEntries_array rfl found, gives, rfl, rfl⟩
  refine ⟨⟨group.kind, pins, elsewhere⟩, ?_, ⟨rfl, alike⟩, List.flatMap_eq_nil_iff.2 silent⟩
  exact (PinGroup.decode_eq_ok_iff ..).2 ⟨_, kindName, rfl,
    Json.find?_name_prunedGroupEntries.trans named, Or.inr ⟨group.kind, _, known, isKept, rfl⟩⟩

theorem Device.decode_prunedDevice {device : Device}
    (decoded : (Device.decode place value).result = .ok device) :
    ∃ kept, (Device.decode elsewhere value.prunedDevice).result = .ok kept ∧
      device.Alike kept ∧ kept.warnings = [] := by
  obtain ⟨entries, items, results, rfl, names, found, areGroups, same, rfl⟩ :=
    (Device.decode_eq_ok_iff ..).1 decoded
  have itemsDistinct := (Json.distinctKeys_array_iff items).1 (distinct.of_find? found)
  have known := forall₂_filterMap_id _ Json.isGroupOfKind items results
    (fun item result ⟨_, given⟩ => PinGroup.isSome_decode device.name item result given)
    areGroups.unplaced
  rw [← same] at known
  obtain ⟨others, gives, kept⟩ := exists_items_kept
    (fun position item => (PinGroup.decode device.name
      ((elsewhere.key "groups").index position) item).result) Json.prunedGroup
    (fun group (other : Option PinGroup) =>
      ∃ kept, other = some kept ∧ group.Alike kept ∧ kept.warnings = [])
    (fun item member => itemsDistinct item (List.mem_of_mem_filter member)) known
    fun item group itemDistinct ⟨_, isGroup⟩ position => by
      obtain ⟨kept, isKept, alike⟩ := PinGroup.decode_prunedGroup itemDistinct
        ((elsewhere.key "groups").index position) isGroup
      exact ⟨some kept, isKept, kept, rfl, alike⟩
  -- All groups that are left are of known kind, so none of them is dropped.
  have groups := forall₂_filterMap_id _ (fun _ => true) _ _
    (fun _ other ⟨_, isSome, _⟩ => by rw [isSome, Option.isSome_some]) kept
  rw [List.filter_true] at groups
  obtain ⟨alike, silent⟩ := forall₂_and_right
    (groups.imp fun group kept ⟨_, same, both⟩ => Option.some.inj same ▸ both)
  have name : "name" ≠ "groups" := by decide
  have base : "prefix" ≠ "groups" := by decide
  refine ⟨⟨device.name, device.base, others.filterMap id, elsewhere⟩, ?_, ⟨rfl, rfl, alike⟩,
    List.flatMap_eq_nil_iff.2 silent⟩
  refine (Device.decode_eq_ok_iff ..).2 ⟨_, _, others, rfl, ⟨?_, ?_⟩,
    Json.find?_knownEntries_array rfl found, gives, rfl, rfl⟩
  · rw [fieldOr?, Json.find?_knownEntries_beside "name" rfl name]
    exact names.name
  · rw [fieldOr?, Json.find?_knownEntries_beside "prefix" rfl base]
    exact names.base

theorem Manifest.decode_pruned {manifest : Manifest}
    (decoded : (Manifest.decode place value).result = .ok manifest) :
    ∃ kept, (Manifest.decode elsewhere value.pruned).result = .ok kept ∧
      manifest.Alike kept ∧ ∀ device ∈ kept.devices, device.warnings = [] := by
  obtain ⟨entries, items, rfl, found, areDevices⟩ := (Manifest.decode_eq_ok_iff ..).1 decoded
  obtain ⟨devices, gives, kept⟩ := exists_items_kept
    (fun position item => (Device.decode ((elsewhere.key "io").index position) item).result)
    Json.prunedDevice (fun device kept => device.Alike kept ∧ kept.warnings = [])
    ((Json.distinctKeys_array_iff items).1 (distinct.of_find? found)) areDevices.unplaced
    fun item device itemDistinct ⟨_, isDevice⟩ _ =>
      Device.decode_prunedDevice itemDistinct _ isDevice
  obtain ⟨alike, silent⟩ := forall₂_and_right kept
  exact ⟨⟨devices⟩, (Manifest.decode_eq_ok_iff ..).2 ⟨_, _, rfl,
    Json.find?_knownEntries_array rfl found, gives⟩, alike, silent⟩

end Levels

namespace Json

theorem itemsUnder_onEntries (known : List String) (key : String) (change : List Json → List Json)
    (isKnown : known.contains key = true) (empty : change [] = []) (value : Json) :
    (value.onEntries (knownEntries known key change)).itemsUnder key =
      change (value.itemsUnder key) := by
  cases value with
  | object entries =>
      simp only [onEntries, itemsUnder, find?_knownEntries key isKnown]
      cases find? key entries with
      | none => exact empty.symm
      | some field => cases field <;> simp [onItems, empty]
  | _ => exact empty.symm

theorem groupNotice?_prunedGroup (device : String) (group : Json)
    (known : group.isGroupOfKind = true) : group.prunedGroup.groupNotice? device = none := by
  unfold isGroupOfKind at known
  split at known
  · next entries =>
      split at known
      · next name found =>
          simp only [prunedGroup, onEntries, groupNotice?, find?_name_prunedGroupEntries, found,
            if_neg (Option.isSome_iff_ne_none.1 known)]
      · cases known
  · cases known

theorem deviceNotices_prunedDevice (device : Json) : device.prunedDevice.deviceNotices = [] := by
  rw [deviceNotices, prunedDevice, itemsUnder_onEntries _ _ _ rfl rfl, List.filterMap_eq_nil_iff]
  intro group member
  obtain ⟨item, isItem, rfl⟩ := List.mem_map.1 member
  exact groupNotice?_prunedGroup _ item (List.mem_filter.1 isItem).2

theorem notices_pruned (root : Json) : root.pruned.notices = [] := by
  rw [notices, pruned, itemsUnder_onEntries _ _ _ rfl rfl, List.flatMap_eq_nil_iff]
  intro device member
  obtain ⟨item, _, rfl⟩ := List.mem_map.1 member
  exact deviceNotices_prunedDevice item

end Json

theorem Manifest.ofDocument_pruned (document : String × Json) (manifest : Manifest)
    (distinct : document.2.DistinctKeys)
    (decoded : (Manifest.ofDocument document).result = .ok manifest) :
    ∃ kept, (Manifest.ofDocument (document.1, document.2.pruned)).result = .ok kept ∧
      (Manifest.ofDocument (document.1, document.2.pruned)).warnings = [] ∧
      manifest.Alike kept ∧ ∀ device ∈ kept.devices, device.warnings = [] := by
  obtain ⟨kept, isKept, alike, silent⟩ :=
    Manifest.decode_pruned distinct (.root document.1) decoded
  refine ⟨kept, isKept, ?_, alike, silent⟩
  rw [Outcome.warnings, Manifest.ofDocument, Manifest.events_decode _ _ kept isKept,
    Json.notices_pruned]
  rfl

/-- Documents without what is ignored are decoded as well, without any warning; the files of their
manifests are the same, and these give no warning either. No document that is read repeats a key in
an object, see `Json.distinctKeys_of_loadDocument`. -/
theorem ignored_input_unseen (documents : List (String × Json)) (manifests : List Manifest)
    (distinct : ∀ document ∈ documents, document.2.DistinctKeys)
    (decoded : DecodedAs documents manifests) :
    ∃ others, DecodedAs (documents.map fun document => (document.1, document.2.pruned)) others ∧
      (∀ document ∈ documents,
        (Manifest.ofDocument (document.1, document.2.pruned)).warnings = []) ∧
      ∀ guard signals,
        (Listing.ofManifests guard signals others).headerText =
          (Listing.ofManifests guard signals manifests).headerText ∧
        (Listing.ofManifests guard signals others).sourceText =
          (Listing.ofManifests guard signals manifests).sourceText ∧
        Event.warnings (Listing.ofManifests guard signals others).events = [] := by
  have all : ∃ others,
      DecodedAs (documents.map fun document => (document.1, document.2.pruned)) others ∧
      (∀ document ∈ documents,
        (Manifest.ofDocument (document.1, document.2.pruned)).warnings = []) ∧
      List.Forall₂ Manifest.Alike manifests others ∧
      ∀ other ∈ others, ∀ device ∈ other.devices, device.warnings = [] := by
    induction decoded with
    | nil => exact ⟨[], .nil, by simp, .nil, by simp⟩
    | cons first _ ih =>
        obtain ⟨here, later⟩ := List.forall_mem_cons.1 distinct
        obtain ⟨kept, isKept, warned, alike, silent⟩ := Manifest.ofDocument_pruned _ _ here first
        obtain ⟨others, areKept, allWarned, allAlike, allSilent⟩ := ih later
        exact ⟨kept :: others, .cons isKept areKept, List.forall_mem_cons.2 ⟨warned, allWarned⟩,
          .cons alike allAlike, List.forall_mem_cons.2 ⟨silent, allSilent⟩⟩
  obtain ⟨others, areKept, warned, alike, silent⟩ := all
  refine ⟨others, areKept, warned, ?_⟩
  intro guard signals
  obtain ⟨header, source⟩ := Listing.ofManifests_alike guard signals alike
  refine ⟨header, source, ?_⟩
  rw [Listing.warnings_ofManifests, List.flatMap_eq_nil_iff]
  intro device member
  obtain ⟨other, isOther, isDevice⟩ := List.mem_flatMap.1 member
  exact silent other isOther device isDevice

/-- A document with a group of unknown kind, unknown fields, and a timer and a chip whose attributes
say nothing of use. -/
def documentOfIdleAttributes : Json :=
  .object [("title", .string "board"), ("io", .array [.object [("name", .string "board"),
    ("revision", .string "b"), ("groups", .array [
      .object [("name", .string "leds")],
      .object [("name", .string "timers"), ("pins", .array [
        .object [("name", .string "tick"), ("interrupt", .string "often")]])],
      .object [("name", .string "spi"), ("note", .null), ("pins", .array [
        .object [("sclk", .null), ("name", .string "adc"), ("driver", .string "mcp3208"),
          ("cs", .bool true), ("colour", .string "red")]])]])]])]

def manifestOfIdleAttributes : Manifest :=
  let device := ((Location.root "io.json").key "io").index 0
  let group (position : Nat) := (device.key "groups").index position
  ⟨[⟨"board", "pins", [
    ⟨.timers, [⟨"tick", 0, 0, none, none, none, [⟨"interrupt", .string "often"⟩],
      ((group 1).key "pins").index 0⟩], group 1⟩,
    ⟨.spi, [⟨"adc", 0, 0, none, some "mcp3208", none,
      [⟨"sclk", .null⟩, ⟨"cs", .bool true⟩, ⟨"colour", .string "red"⟩],
      ((group 2).key "pins").index 0⟩], group 2⟩], device⟩]⟩

theorem ignored_input_unseen_documentOfIdleAttributes :
    (Manifest.ofDocument ("io.json", documentOfIdleAttributes)).result =
      .ok manifestOfIdleAttributes ∧
    ∃ others, DecodedAs [("io.json", documentOfIdleAttributes.pruned)] others ∧
      ∀ guard signals,
        (Listing.ofManifests guard signals others).headerText =
          (Listing.ofManifests guard signals [manifestOfIdleAttributes]).headerText ∧
        (Listing.ofManifests guard signals others).sourceText =
          (Listing.ofManifests guard signals [manifestOfIdleAttributes]).sourceText ∧
        Event.warnings (Listing.ofManifests guard signals others).events = [] := by
  have decoded : (Manifest.ofDocument ("io.json", documentOfIdleAttributes)).result =
      .ok manifestOfIdleAttributes := by
    rfl
  have distinct : documentOfIdleAttributes.DistinctKeys := by
    simp [documentOfIdleAttributes, keys]
  obtain ⟨others, decodedOthers, _, files⟩ :=
    ignored_input_unseen [("io.json", documentOfIdleAttributes)] [manifestOfIdleAttributes]
      (List.forall_mem_singleton.2 distinct) (.cons decoded .nil)
  exact ⟨decoded, others, decodedOthers, files⟩

end PinTable
