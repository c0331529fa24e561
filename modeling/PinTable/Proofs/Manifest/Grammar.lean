import PinTable.Proofs.Manifest.Records

set_option autoImplicit false

namespace PinTable

open Entries (find?)

namespace Json

def IsText (value : Json) : Prop := ∃ text, value = string text

/-- An integer that a signed word of 64 bits holds. -/
def IsInt64 (value : Json) : Prop :=
  ∃ integer lower upper, value = number (.integer integer lower upper) ∧
    minInt64 ≤ integer ∧ integer ≤ maxInt64

def IsArrayOf (each : Json → Prop) (value : Json) : Prop :=
  ∃ items, value = array items ∧ ∀ item ∈ items, each item

def IsObjectOf (fields : Entries Json → Prop) (value : Json) : Prop :=
  ∃ entries, value = object entries ∧ fields entries

end Json

open Json (IsText IsInt64 IsArrayOf IsObjectOf)

/-- The field is there, and its value is such. -/
def Requires (key : String) (such : Json → Prop) (object : Entries Json) : Prop :=
  ∃ value, find? key object = some value ∧ such value

/-- The field is missing, or its value is such. A null is a value. -/
def Allows (key : String) (such : Json → Prop) (object : Entries Json) : Prop :=
  ∀ value, find? key object = some value → such value

structure PinFields (object : Entries Json) : Prop where
  name : Requires "name" IsText object
  tag : Allows "group" IsText object
  driver : Allows "driver" IsText object
  device : Allows "device" IsText object
  bank : Allows "bank" IsInt64 object
  addr : Allows "addr" IsInt64 object

structure GroupFields (object : Entries Json) : Prop where
  name : Requires "name" IsText object
  /-- Pins are asked for in a group of known kind only. -/
  pins : ∀ kind : PinKind, find? "name" object = some (.string kind.name) →
    Requires "pins" (IsArrayOf (IsObjectOf PinFields)) object

structure DeviceFields (object : Entries Json) : Prop where
  name : Allows "name" IsText object
  base : Allows "prefix" IsText object
  groups : Requires "groups" (IsArrayOf (IsObjectOf GroupFields)) object

/-- A document that is a manifest. -/
def Json.IsManifest (value : Json) : Prop :=
  IsObjectOf (Requires "io" (IsArrayOf (IsObjectOf DeviceFields))) value

section Read

variable (object : Entries Json) (key : String)

theorem requires_text_iff :
    Requires key IsText object ↔ ∃ text, find? key object = some (.string text) := by
  constructor
  · rintro ⟨value, found, text, rfl⟩
    exact ⟨text, found⟩
  · rintro ⟨text, found⟩
    exact ⟨_, found, text, rfl⟩

theorem requires_array_iff (each : Json → Prop) :
    Requires key (IsArrayOf each) object ↔
      ∃ items, find? key object = some (.array items) ∧ ∀ item ∈ items, each item := by
  constructor
  · rintro ⟨value, found, items, rfl, all⟩
    exact ⟨items, found, all⟩
  · rintro ⟨items, found, all⟩
    exact ⟨_, found, items, rfl, all⟩

theorem allows_text_iff :
    Allows key IsText object ↔ ∃ said : Option String, find? key object = said.map .string := by
  unfold Allows
  cases found : find? key object with
  | none => exact iff_of_true (fun value same => by cases same) ⟨none, rfl⟩
  | some value =>
      constructor
      · intro each
        obtain ⟨text, rfl⟩ := each value rfl
        exact ⟨some text, rfl⟩
      · rintro ⟨said, same⟩ other isOther
        obtain ⟨text, rfl, isText⟩ := Option.map_eq_some_iff.1 same.symm
        rw [Option.some_inj] at isOther
        exact ⟨text, isOther.symm.trans isText.symm⟩

/-- A field with a default is read just if its value is. -/
theorem exists_fieldOr?_iff {α : Type} (missing : α) (read : Json → Option α) :
    (∃ result, fieldOr? missing read key object = some result) ↔
      Allows key (fun value => ∃ result, read value = some result) object := by
  unfold fieldOr? Allows
  cases find? key object with
  | none => exact iff_of_true ⟨missing, rfl⟩ fun value same => by cases same
  | some value =>
      constructor
      · rintro reads other same
        rwa [← Option.some_inj.1 same]
      · exact fun each => each value rfl

theorem exists_int64?_iff (value : Json) :
    (∃ integer, value.int64? = some integer) ↔ IsInt64 value := by
  constructor
  · rintro ⟨integer, read⟩
    unfold Json.int64? at read
    split at read
    · next number lower upper =>
        obtain ⟨_, least, greatest⟩ := (toInt64?_eq_some_iff number integer).1 read
        exact ⟨number, lower, upper, rfl, least, greatest⟩
    · cases read
  · rintro ⟨integer, lower, upper, rfl, least, greatest⟩
    exact ⟨integer, (toInt64?_eq_some_iff integer integer).2 ⟨rfl, least, greatest⟩⟩

theorem allows_textOr_iff (missing : String) :
    Allows key IsText object ↔ ∃ text, fieldOr? missing Json.text? key object = some text := by
  rw [exists_fieldOr?_iff]
  simp only [Json.text?_eq_some_iff]
  rfl

theorem allows_int64Or_iff (missing : Int) :
    Allows key IsInt64 object ↔
      ∃ integer, fieldOr? missing Json.int64? key object = some integer := by
  rw [exists_fieldOr?_iff]
  simp only [exists_int64?_iff]

end Read

theorem Pin.exists_ofObject_iff (object : Entries Json) (place : Location) :
    (∃ pin : Pin, pin.location = place ∧ pin.OfObject object) ↔ PinFields object := by
  constructor
  · rintro ⟨pin, _, fields⟩
    constructor
    case name => exact (requires_text_iff ..).2 ⟨_, fields.name⟩
    case tag => exact (allows_text_iff ..).2 ⟨_, fields.tag⟩
    case driver => exact (allows_text_iff ..).2 ⟨_, fields.driver⟩
    case device => exact (allows_text_iff ..).2 ⟨_, fields.device⟩
    case bank => exact (allows_int64Or_iff ..).2 ⟨_, fields.bank⟩
    case addr => exact (allows_int64Or_iff ..).2 ⟨_, fields.addr⟩
  · intro fields
    obtain ⟨name, isName⟩ := (requires_text_iff ..).1 fields.name
    obtain ⟨tag, isTag⟩ := (allows_text_iff ..).1 fields.tag
    obtain ⟨driver, isDriver⟩ := (allows_text_iff ..).1 fields.driver
    obtain ⟨device, isDevice⟩ := (allows_text_iff ..).1 fields.device
    obtain ⟨bank, isBank⟩ := (allows_int64Or_iff object "bank" 0).1 fields.bank
    obtain ⟨addr, isAddr⟩ := (allows_int64Or_iff object "addr" 0).1 fields.addr
    exact ⟨⟨name, bank, addr, tag, driver, device, attributesOf object, place⟩, rfl, isName, isTag,
      isDriver, isDevice, isBank, isAddr, map_attributesOf object⟩

theorem Pin.exists_decode_iff (device : String) (kind : PinKind) (place : Location)
    (value : Json) :
    (∃ pin, Pin.decode device kind place value = .ok pin) ↔ IsObjectOf PinFields value := by
  simp only [Pin.decode_eq_ok_iff, IsObjectOf, ← Pin.exists_ofObject_iff _ place]
  constructor
  · rintro ⟨pin, object, isObject, fields⟩
    exact ⟨object, isObject, pin, fields⟩
  · rintro ⟨object, isObject, pin, fields⟩
    exact ⟨pin, object, isObject, fields⟩

theorem PinGroup.exists_decodePins_iff (device : String) (kind : PinKind) (place : Location)
    (object : Entries Json) :
    (∃ group, PinGroup.decodePins device kind place object = .ok group) ↔
      Requires "pins" (IsArrayOf (IsObjectOf PinFields)) object := by
  have pins := fun items : List Json => exists_eachGives_iff
    (fun position item => Pin.decode device kind ((place.key "pins").index position) item) 0 items
    (IsObjectOf PinFields) fun item _ position => Pin.exists_decode_iff device kind _ item
  rw [requires_array_iff]
  simp only [PinGroup.decodePins_eq_ok_iff, ← pins]
  constructor
  · rintro ⟨group, items, found, arePins, _⟩
    exact ⟨items, found, group.pins, arePins⟩
  · rintro ⟨items, found, pins, arePins⟩
    exact ⟨⟨kind, pins, place⟩, items, found, arePins, rfl, rfl⟩

/-- A group is decoded or left out just if its name is a text and, if that is the name of a kind,
its pins are as they should be. -/
theorem PinGroup.exists_decode_iff (device : String) (place : Location) (value : Json) :
    (∃ group, (PinGroup.decode device place value).result = .ok group) ↔
      IsObjectOf GroupFields value := by
  simp only [PinGroup.decode_eq_ok_iff]
  constructor
  · rintro ⟨result, object, kindName, rfl, isName, decoded⟩
    refine ⟨object, rfl, (requires_text_iff ..).2 ⟨_, isName⟩, ?_⟩
    intro kind isKind
    rw [isName, Option.some_inj, Json.string.injEq] at isKind
    rw [isKind, PinKind.ofName?_name] at decoded
    rcases decoded with ⟨unknown, _⟩ | ⟨known, group, same, isGroup, _⟩
    · cases unknown
    · exact (PinGroup.exists_decodePins_iff device known place object).1 ⟨group, isGroup⟩
  · rintro ⟨object, rfl, fields⟩
    obtain ⟨kindName, isName⟩ := (requires_text_iff ..).1 fields.name
    cases known : PinKind.ofName? kindName with
    | none => exact ⟨none, object, kindName, rfl, isName, Or.inl ⟨known, rfl⟩⟩
    | some kind =>
        rw [← PinKind.name_of_ofName? kindName kind known] at isName
        obtain ⟨group, isGroup⟩ :=
          (PinGroup.exists_decodePins_iff device kind place object).2 (fields.pins kind isName)
        exact ⟨some group, object, kind.name, rfl, isName,
          Or.inr ⟨kind, group, PinKind.ofName?_name kind, isGroup, rfl⟩⟩

theorem Device.exists_decode_iff (place : Location) (value : Json) :
    (∃ device, (Device.decode place value).result = .ok device) ↔
      IsObjectOf DeviceFields value := by
  have groups := fun (name : String) (items : List Json) => exists_eachGives_iff
    (fun position item =>
      (PinGroup.decode name ((place.key "groups").index position) item).result) 0 items
    (IsObjectOf GroupFields) fun item _ position => PinGroup.exists_decode_iff name _ item
  simp only [Device.decode_eq_ok_iff]
  constructor
  · rintro ⟨device, object, items, results, rfl, names, found, areGroups, _⟩
    refine ⟨object, rfl, ?_, ?_, ?_⟩
    · exact (allows_textOr_iff ..).2 ⟨_, names.name⟩
    · exact (allows_textOr_iff ..).2 ⟨_, names.base⟩
    · exact (requires_array_iff ..).2 ⟨items, found, (groups device.name items).1 ⟨_, areGroups⟩⟩
  · rintro ⟨object, rfl, fields⟩
    obtain ⟨name, isName⟩ := (allows_textOr_iff object "name" Device.defaultName).1 fields.name
    obtain ⟨base, isBase⟩ := (allows_textOr_iff object "prefix" Device.defaultBase).1 fields.base
    obtain ⟨items, found, each⟩ := (requires_array_iff ..).1 fields.groups
    obtain ⟨results, areGroups⟩ := (groups name items).2 each
    exact ⟨⟨name, base, results.filterMap id, place⟩, object, items, results, rfl,
      ⟨isName, isBase⟩, found, areGroups, rfl, rfl⟩

/-- A document is decoded just if it is of the grammar. -/
theorem decodes_iff_isManifest (place : Location) (value : Json) :
    (∃ manifest, (Manifest.decode place value).result = .ok manifest) ↔ value.IsManifest := by
  have devices := fun items : List Json => exists_eachGives_iff
    (fun position item => (Device.decode ((place.key "io").index position) item).result) 0 items
    (IsObjectOf DeviceFields) fun item _ position => Device.exists_decode_iff _ item
  simp only [Manifest.decode_eq_ok_iff]
  constructor
  · rintro ⟨manifest, object, items, rfl, found, areDevices⟩
    exact ⟨object, rfl, (requires_array_iff ..).2 ⟨items, found, (devices items).1 ⟨_, areDevices⟩⟩⟩
  · rintro ⟨object, rfl, fields⟩
    obtain ⟨items, found, each⟩ := (requires_array_iff ..).1 fields
    obtain ⟨results, areDevices⟩ := (devices items).2 each
    exact ⟨⟨results⟩, object, items, rfl, found, areDevices⟩

end PinTable
