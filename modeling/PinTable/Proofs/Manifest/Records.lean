import PinTable.Proofs.Manifest.Fields

set_option autoImplicit false

namespace PinTable

open Entries (find?)

/-- The pin that the fields of an object tell of. -/
structure Pin.OfObject (object : Entries Json) (pin : Pin) : Prop where
  name : find? "name" object = some (.string pin.name)
  tag : find? "group" object = pin.tag.map .string
  driver : find? "driver" object = pin.driver.map .string
  device : find? "device" object = pin.device.map .string
  bank : fieldOr? 0 Json.int64? "bank" object = some pin.bank
  addr : fieldOr? 0 Json.int64? "addr" object = some pin.addr
  /-- The entries of other keys, in order. -/
  attributes : pin.attributes.map (fun entry => (entry.key, entry.value)) =
    object.filter fun entry => entry.1 ∉ structuralKeys

theorem map_attributesOf (object : Entries Json) :
    (attributesOf object).map (fun entry => (entry.key, entry.value)) =
      object.filter fun entry => entry.1 ∉ structuralKeys := by
  rw [attributesOf, List.map_map]
  have same : ((fun entry => (entry.key, entry.value)) ∘ fun entry : String × Json =>
      (⟨entry.1, entry.2⟩ : Attribute)) = id := rfl
  rw [same, List.map_id]
  apply List.filter_congr
  intro entry _
  simp [isStructural]

theorem Pin.OfObject.attributes_eq {object : Entries Json} {pin : Pin} (fields : pin.OfObject object) :
    pin.attributes = attributesOf object := by
  have pair : Function.Injective fun entry : Attribute => (entry.key, entry.value) := by
    rintro ⟨key, value⟩ ⟨other, found⟩ same
    cases same
    rfl
  exact pair.list_map (fields.attributes.trans (map_attributesOf object).symm)

theorem Pin.decode_eq_ok_iff (device : String) (kind : PinKind) (place : Location) (value : Json)
    (pin : Pin) :
    Pin.decode device kind place value = .ok pin ↔
      ∃ object, value = .object object ∧ pin.location = place ∧ pin.OfObject object := by
  simp only [Pin.decode, bind_eq_ok_iff, pure_eq_ok_iff, Json.expectObject_eq_ok_iff,
    requireString_eq_ok_iff, stringField?_eq_ok_iff, fieldSays_text_iff, integerField?_eq_ok_iff]
  constructor
  · rintro ⟨object, isObject, name, isName, tag, isTag, driver, isDriver, chip, isChip, bank, isBank,
      addr, isAddr, rfl⟩
    exact ⟨object, isObject, rfl, isName, isTag, isDriver, isChip,
      (fieldOr?_eq_some_iff ..).2 ⟨bank, isBank, rfl⟩,
      (fieldOr?_eq_some_iff ..).2 ⟨addr, isAddr, rfl⟩, map_attributesOf object⟩
  · rintro ⟨object, isObject, rfl, fields⟩
    obtain ⟨bank, isBank, sameBank⟩ := (fieldOr?_eq_some_iff ..).1 fields.bank
    obtain ⟨addr, isAddr, sameAddr⟩ := (fieldOr?_eq_some_iff ..).1 fields.addr
    refine ⟨object, isObject, pin.name, fields.name, pin.tag, fields.tag, pin.driver, fields.driver,
      pin.device, fields.device, bank, isBank, addr, isAddr, ?_⟩
    rw [sameBank, sameAddr, ← fields.attributes_eq]

theorem PinGroup.decodePins_eq_ok_iff (device : String) (kind : PinKind) (place : Location)
    (object : Entries Json) (group : PinGroup) :
    PinGroup.decodePins device kind place object = .ok group ↔
      ∃ items, find? "pins" object = some (.array items) ∧
        EachGives (fun position item =>
          Pin.decode device kind ((place.key "pins").index position) item) 0 items group.pins ∧
        group.kind = kind ∧ group.location = place := by
  simp only [PinGroup.decodePins, bind_eq_ok_iff, pure_eq_ok_iff, requireField_eq_ok_iff,
    Json.expectArray_eq_ok_iff, forEachAt_eq_ok_iff]
  constructor
  · rintro ⟨field, isField, items, rfl, pins, arePins, rfl⟩
    exact ⟨items, isField, arePins, rfl, rfl⟩
  · rintro ⟨items, isField, arePins, rfl, rfl⟩
    exact ⟨_, isField, items, rfl, group.pins, arePins, rfl⟩

/-- A group is decoded as its pins if its kind is known, and else left out. -/
theorem PinGroup.decode_eq_ok_iff (device : String) (place : Location) (value : Json)
    (result : Option PinGroup) :
    (PinGroup.decode device place value).result = .ok result ↔
      ∃ object kindName, value = .object object ∧ find? "name" object = some (.string kindName) ∧
        ((PinKind.ofName? kindName = none ∧ result = none) ∨
          ∃ kind group, PinKind.ofName? kindName = some kind ∧
            PinGroup.decodePins device kind place object = .ok group ∧ result = some group) := by
  simp only [PinGroup.decode, Outcome.result_bind, Outcome.result_ofExcept, bind_eq_ok_iff,
    Json.expectObject_eq_ok_iff, requireString_eq_ok_iff]
  constructor
  · rintro ⟨object, isObject, kindName, isName, decoded⟩
    refine ⟨object, kindName, isObject, isName, ?_⟩
    cases known : PinKind.ofName? kindName with
    | none =>
        rw [known] at decoded
        cases decoded
        exact Or.inl ⟨rfl, rfl⟩
    | some kind =>
        simp only [known, Outcome.result_bind, Outcome.result_ofExcept, Outcome.result_pure,
          bind_eq_ok_iff, pure_eq_ok_iff] at decoded
        obtain ⟨group, isGroup, rfl⟩ := decoded
        exact Or.inr ⟨kind, group, rfl, isGroup, rfl⟩
  · rintro ⟨object, kindName, isObject, isName, ⟨unknown, rfl⟩ | ⟨kind, group, known, isGroup, rfl⟩⟩
    · refine ⟨object, isObject, kindName, isName, ?_⟩
      rw [unknown]
      rfl
    · refine ⟨object, isObject, kindName, isName, ?_⟩
      simp only [known, Outcome.result_bind, Outcome.result_ofExcept, Outcome.result_pure,
        bind_eq_ok_iff, pure_eq_ok_iff]
      exact ⟨group, isGroup, rfl⟩

/-- The names of a device that the fields of an object tell of. -/
structure Device.NamedBy (object : Entries Json) (name base : String) : Prop where
  name : fieldOr? Device.defaultName Json.text? "name" object = some name
  base : fieldOr? Device.defaultBase Json.text? "prefix" object = some base

theorem Device.decode_eq_ok_iff (place : Location) (value : Json) (device : Device) :
    (Device.decode place value).result = .ok device ↔
      ∃ object items groups, value = .object object ∧
        Device.NamedBy object device.name device.base ∧ find? "groups" object = some (.array items) ∧
        EachGives (fun position item => (PinGroup.decode device.name
          ((place.key "groups").index position) item).result) 0 items groups ∧
        device.groups = groups.filterMap id ∧ device.location = place := by
  simp only [Device.decode, Outcome.result_bind, Outcome.result_ofExcept, Outcome.result_pure,
    result_forEachAt, bind_eq_ok_iff, pure_eq_ok_iff, Json.expectObject_eq_ok_iff,
    stringField?_eq_ok_iff, requireField_eq_ok_iff, Json.expectArray_eq_ok_iff, forEachAt_eq_ok_iff]
  constructor
  · rintro ⟨object, isObject, name, isName, base, isBase, field, isField, items, rfl, groups,
      areGroups, rfl⟩
    exact ⟨object, items, groups, isObject, ⟨(fieldOr?_eq_some_iff ..).2 ⟨name, isName, rfl⟩,
      (fieldOr?_eq_some_iff ..).2 ⟨base, isBase, rfl⟩⟩, isField, areGroups, rfl, rfl⟩
  · rintro ⟨object, items, groups, isObject, names, areItems, areGroups, sameGroups, rfl⟩
    obtain ⟨name, isName, sameName⟩ := (fieldOr?_eq_some_iff ..).1 names.name
    obtain ⟨base, isBase, sameBase⟩ := (fieldOr?_eq_some_iff ..).1 names.base
    rw [← sameName] at areGroups
    refine ⟨object, isObject, name, isName, base, isBase, _, areItems, items, rfl, groups, areGroups,
      ?_⟩
    rw [sameName, sameBase, ← sameGroups]

theorem Manifest.decode_eq_ok_iff (place : Location) (value : Json) (manifest : Manifest) :
    (Manifest.decode place value).result = .ok manifest ↔
      ∃ object items, value = .object object ∧ find? "io" object = some (.array items) ∧
        EachGives (fun position item =>
          (Device.decode ((place.key "io").index position) item).result) 0 items
          manifest.devices := by
  simp only [Manifest.decode, Outcome.result_bind, Outcome.result_ofExcept, Outcome.result_pure,
    result_forEachAt, bind_eq_ok_iff, pure_eq_ok_iff, Json.expectObject_eq_ok_iff,
    requireField_eq_ok_iff, Json.expectArray_eq_ok_iff, forEachAt_eq_ok_iff]
  constructor
  · rintro ⟨object, isObject, field, isField, items, rfl, devices, areDevices, rfl⟩
    exact ⟨object, items, isObject, isField, areDevices⟩
  · rintro ⟨object, items, isObject, areItems, areDevices⟩
    exact ⟨object, isObject, _, areItems, items, rfl, manifest.devices, areDevices, rfl⟩

/-- The decoding of a document that comes with its name. -/
def Manifest.ofDocument (document : String × Json) : Decoding Manifest :=
  Manifest.decode (.root document.1) document.2

/-- The manifests that documents are decoded as, one by one. -/
def DecodedAs (documents : List (String × Json)) (manifests : List Manifest) : Prop :=
  List.Forall₂ (fun document manifest => (Manifest.ofDocument document).result = .ok manifest)
    documents manifests

theorem decodedAs_iff (documents : List (String × Json)) (manifests : List Manifest) :
    DecodedAs documents manifests ↔
      (documents.map Manifest.ofDocument).map Outcome.result = manifests.map .ok := by
  rw [List.map_map, ← List.forall₂_eq_eq_eq, List.forall₂_map_left_iff, List.forall₂_map_right_iff]
  rfl

end PinTable
