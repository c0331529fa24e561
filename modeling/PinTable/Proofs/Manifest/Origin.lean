import PinTable.Proofs.Json.Place
import PinTable.Proofs.Manifest.Records

set_option autoImplicit false

namespace PinTable

open Entries (find?)

/-- Records in the order of the items that they come from. The location of each has the position of
its item in the array, and the item is an object that tells of the record. -/
def RecordsOf {β : Type} (tells : Entries Json → β → Prop) (location : β → Location)
    (array : Location) (items : List (Json × Nat)) (records : List β) : Prop :=
  List.Forall₂ (fun item record => location record = array.index item.2 ∧
    ∃ object, item.1 = .object object ∧ tells object record) items records

/-- The item of a list of groups is an object with the name of a kind. -/
def Json.isGroupOfKind : Json → Bool
  | .object entries =>
      match find? "name" entries with
      | some (.string name) => (PinKind.ofName? name).isSome
      | _ => false
  | _ => false

/-- A pin comes from an object of a document. -/
structure Pin.From (root : Json) (object : Entries Json) (pin : Pin) : Prop where
  here : pin.location.Holds root (.object object)
  fields : pin.OfObject object

/-- A group comes from an object of a document, with one pin for each item of its list. -/
structure PinGroup.From (root : Json) (object : Entries Json) (group : PinGroup) : Prop where
  here : group.location.Holds root (.object object)
  kind : find? "name" object = some (.string group.kind.name)
  pins : ∃ items, find? "pins" object = some (.array items) ∧
    RecordsOf (Pin.From root) Pin.location (group.location.key "pins") items.zipIdx group.pins

/-- A device comes from an object of a document, with one group for each item of its list that has a
known kind. -/
structure Device.From (root : Json) (object : Entries Json) (device : Device) : Prop where
  here : device.location.Holds root (.object object)
  names : Device.NamedBy object device.name device.base
  groups : ∃ items, find? "groups" object = some (.array items) ∧
    RecordsOf (PinGroup.From root) PinGroup.location (device.location.key "groups")
      (items.zipIdx.filter fun item => item.1.isGroupOfKind) device.groups

/-- A manifest comes from a document, with one device for each item of its list. -/
def Manifest.From (document : String) (root : Json) (manifest : Manifest) : Prop :=
  ∃ object items, root = .object object ∧ find? "io" object = some (.array items) ∧
    RecordsOf (Device.From root) Device.location ((Location.root document).key "io") items.zipIdx
      manifest.devices

/-- Results of a sequence are records of its items if each result is one of its item. -/
theorem recordsOf_eachGives {β : Type} (tells : Entries Json → β → Prop) (location : β → Location)
    (array : Location) (step : Nat → Json → Decoded β) (items : List Json) (records : List β)
    (gives : EachGives step 0 items records)
    (each : ∀ position item record, items[position]? = some item →
      step position item = .ok record → location record = array.index position ∧
        ∃ object, item = .object object ∧ tells object record) :
    RecordsOf tells location array items.zipIdx records :=
  gives.located.imp fun entry record given => each entry.2 entry.1 record given.1 given.2

/-- Results that may be missing: those that are there belong to the items that count. -/
theorem forall₂_filterMap_id {α β : Type} (matching : α → Option β → Prop) (counts : α → Bool)
    (items : List α) (results : List (Option β))
    (each : ∀ item result, matching item result → result.isSome = counts item)
    (all : List.Forall₂ matching items results) :
    List.Forall₂ (fun item result => matching item (some result)) (items.filter counts)
      (results.filterMap id) := by
  induction all with
  | nil => exact .nil
  | @cons item result items results first rest ih =>
      have counted := each item result first
      cases result with
      | none =>
          rw [List.filter_cons_of_neg (by simp [← counted])]
          exact ih
      | some record =>
          rw [List.filter_cons_of_pos (by simp [← counted])]
          exact .cons first ih

section Levels

variable {root : Json} {place : Location}

theorem Pin.from_of_decode (device : String) (kind : PinKind) (value : Json) (pin : Pin)
    (holds : place.Holds root value) (decoded : Pin.decode device kind place value = .ok pin) :
    pin.location = place ∧ ∃ object, value = .object object ∧ Pin.From root object pin := by
  obtain ⟨object, rfl, rfl, fields⟩ := (Pin.decode_eq_ok_iff ..).1 decoded
  exact ⟨rfl, object, rfl, holds, fields⟩

/-- Items that are decoded as the pins of a group are an array under its key. -/
theorem PinGroup.from_of_decodePins (device : String) (kind : PinKind) (object : Entries Json)
    (group : PinGroup) (holds : place.Holds root (.object object))
    (named : find? "name" object = some (.string kind.name))
    (decoded : PinGroup.decodePins device kind place object = .ok group) :
    group.location = place ∧ PinGroup.From root object group := by
  obtain ⟨items, found, arePins, rfl, rfl⟩ := (PinGroup.decodePins_eq_ok_iff ..).1 decoded
  refine ⟨rfl, holds, named, items, found, recordsOf_eachGives _ _ _ _ _ _ arePins ?_⟩
  intro position item pin isItem isPin
  exact Pin.from_of_decode device group.kind item pin
    ((holds.key "pins" _ found).index position item isItem) isPin

/-- A group is left out just if its kind is not known. -/
theorem PinGroup.isSome_decode (device : String) (value : Json) (result : Option PinGroup)
    (decoded : (PinGroup.decode device place value).result = .ok result) :
    result.isSome = value.isGroupOfKind := by
  obtain ⟨object, kindName, rfl, named, ⟨unknown, rfl⟩ | ⟨kind, group, known, _, rfl⟩⟩ :=
    (PinGroup.decode_eq_ok_iff ..).1 decoded
  · simp [Json.isGroupOfKind, named, unknown]
  · simp [Json.isGroupOfKind, named, known]

theorem PinGroup.from_of_decode (device : String) (value : Json) (group : PinGroup)
    (holds : place.Holds root value)
    (decoded : (PinGroup.decode device place value).result = .ok (some group)) :
    group.location = place ∧ ∃ object, value = .object object ∧ PinGroup.From root object group := by
  obtain ⟨object, kindName, rfl, named, ⟨_, missing⟩ | ⟨kind, same, known, isGroup, isResult⟩⟩ :=
    (PinGroup.decode_eq_ok_iff ..).1 decoded
  · cases missing
  · cases isResult
    rw [← PinKind.name_of_ofName? kindName kind known] at named
    obtain ⟨here, came⟩ := PinGroup.from_of_decodePins device kind object group holds named isGroup
    exact ⟨here, object, rfl, came⟩

theorem Device.from_of_decode (value : Json) (device : Device) (holds : place.Holds root value)
    (decoded : (Device.decode place value).result = .ok device) :
    device.location = place ∧ ∃ object, value = .object object ∧ Device.From root object device := by
  obtain ⟨object, items, results, rfl, names, found, areGroups, kept, rfl⟩ :=
    (Device.decode_eq_ok_iff ..).1 decoded
  refine ⟨rfl, object, rfl, holds, names, items, found, ?_⟩
  rw [RecordsOf, kept]
  -- Positions are given before the items of unknown kind are dropped.
  have counted := forall₂_filterMap_id _ (fun item => item.1.isGroupOfKind) _ _
    (fun item result given => PinGroup.isSome_decode device.name item.1 result given.2) areGroups.located
  refine counted.imp ?_
  rintro ⟨item, position⟩ group ⟨isItem, isGroup⟩
  exact PinGroup.from_of_decode device.name item group
    ((holds.key "groups" _ found).index position item isItem) isGroup

end Levels

/-- The records of a manifest come from its document. -/
theorem manifest_from_document (document : String) (root : Json) (manifest : Manifest)
    (decoded : (Manifest.decode (.root document) root).result = .ok manifest) :
    Manifest.From document root manifest := by
  obtain ⟨object, items, rfl, found, areDevices⟩ := (Manifest.decode_eq_ok_iff ..).1 decoded
  refine ⟨object, items, rfl, found, recordsOf_eachGives _ _ _ _ _ _ areDevices ?_⟩
  intro position item device isItem isDevice
  have holds := Location.Holds.root document (.object object)
  exact Device.from_of_decode item device
    ((holds.key "io" _ found).index position item isItem) isDevice

/-- A document with a group of unknown kind in front of a known one. -/
def documentOfSkippedGroup : Json :=
  .object [("title", .string "board"), ("io", .array [.object [("prefix", .string "board"),
    ("groups", .array [
      .object [("name", .string "leds")],
      .object [("name", .string "inputs"), ("pins", .array [
        .object [("pull-up", .bool true), ("name", .string "door"), ("group", .string "safety"),
          ("addr", .number (.integer 34 (by decide) (by decide))), ("touch", .null)]])]])]])]

def manifestOfSkippedGroup : Manifest :=
  let device := ((Location.root "io.json").key "io").index 0
  -- The group that is left out counts in the positions.
  let group := (device.key "groups").index 1
  ⟨[⟨"ioblock", "board", [⟨.inputs, [⟨"door", 0, 34, some "safety", none, none,
    [⟨"pull-up", .bool true⟩, ⟨"touch", .null⟩], (group.key "pins").index 0⟩], group⟩], device⟩]⟩

theorem manifest_from_documentOfSkippedGroup :
    (Manifest.decode (.root "io.json") documentOfSkippedGroup).result =
        .ok manifestOfSkippedGroup ∧
      Manifest.From "io.json" documentOfSkippedGroup manifestOfSkippedGroup := by
  have decoded : (Manifest.decode (.root "io.json") documentOfSkippedGroup).result =
      .ok manifestOfSkippedGroup := by
    rfl
  exact ⟨decoded, manifest_from_document _ _ _ decoded⟩

end PinTable
