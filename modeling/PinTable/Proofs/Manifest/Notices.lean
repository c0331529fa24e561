import PinTable.Proofs.Manifest.Items
import PinTable.Proofs.Manifest.Records

set_option autoImplicit false

namespace PinTable

open Entries (find?)

namespace Json

/-- The items of the array under a key, none if there is no such array. -/
def itemsUnder (key : String) : Json → List Json
  | object entries =>
      match find? key entries with
      | some (array items) => items
      | _ => []
  | _ => []

theorem itemsUnder_object {key : String} {object : Entries Json} {items : List Json}
    (found : find? key object = some (.array items)) :
    (Json.object object).itemsUnder key = items := by
  simp only [itemsUnder, found]

/-- The warning about a group of a device: that its kind is not known. -/
def groupNotice? (device : String) : Json → Option Warning
  | object entries =>
      match find? "name" entries with
      | some (string kind) =>
          if PinKind.ofName? kind = none then some (.unknownGroup device kind) else none
      | _ => none
  | _ => none

/-- The name of a device as messages have it. -/
def deviceName : Json → String
  | object entries =>
      (fieldOr? Device.defaultName text? "name" entries).getD Device.defaultName
  | _ => Device.defaultName

/-- The warnings about the groups of a device. -/
def deviceNotices (device : Json) : List Warning :=
  (device.itemsUnder "groups").filterMap (groupNotice? device.deviceName)

/-- The warnings about the groups of all devices. -/
def notices (root : Json) : List Warning := (root.itemsUnder "io").flatMap deviceNotices

theorem deviceName_object {object : Entries Json} {name : String}
    (named : fieldOr? Device.defaultName text? "name" object = some name) :
    (Json.object object).deviceName = name := by
  rw [deviceName, named, Option.getD_some]

end Json

/-- A group is noticed as it is met, whether or not it can be decoded. -/
theorem PinGroup.events_decode (device : String) (place : Location) (value : Json) :
    (PinGroup.decode device place value).events =
      (value.groupNotice? device).toList.map .warned := by
  cases value with
  | object object =>
      cases named : requireString object "name" place (.missingGroupName device) with
      | error fault =>
          rw [PinGroup.decode_unnamed device place object fault named]
          rcases (requireString_eq_error_iff ..).1 named with ⟨absent, _⟩ | ⟨value, found, other, _⟩
          · simp [Json.groupNotice?, absent, Outcome.fail]
          · cases value with
            | string text => exact absurd rfl other
            | _ => simp [Json.groupNotice?, found, Outcome.fail]
      | ok kindName =>
          have found := (requireString_eq_ok_iff ..).1 named
          cases known : PinKind.ofName? kindName with
          | none =>
              rw [PinGroup.decode_unknown device place object kindName found known]
              simp [Json.groupNotice?, found, known, Outcome.reporting]
          | some kind =>
              have silent : (PinGroup.decode device place (.object object)).events = [] := by
                simp only [PinGroup.decode, Json.expectObject, Outcome.ofExcept_ok_bind, named, known,
                  Outcome.events_bind_pure]
                rfl
              rw [silent]
              simp [Json.groupNotice?, found, known]
  | _ => rfl

theorem Device.events_decode (place : Location) (value : Json) (device : Device)
    (decoded : (Device.decode place value).result = .ok device) :
    (Device.decode place value).events = value.deviceNotices.map .warned := by
  obtain ⟨object, items, groups, rfl, names, found, areGroups, _, _⟩ :=
    (Device.decode_eq_ok_iff ..).1 decoded
  obtain ⟨name, isName, sameName⟩ := (fieldOr?_eq_some_iff ..).1 names.name
  obtain ⟨base, isBase, _⟩ := (fieldOr?_eq_some_iff ..).1 names.base
  rw [Device.decode_object, (stringField?_eq_ok_iff ..).2 isName, Outcome.ofExcept_ok_bind,
    (stringField?_eq_ok_iff ..).2 isBase, Outcome.ofExcept_ok_bind, Outcome.events_bind_pure,
    sameName, decodeItems_array _ _ _ _ _ items found,
    events_forEachAt _ (fun group => (group.groupNotice? device.name).toList.map .warned) 0 items
      groups areGroups fun group _ position _ _ => PinGroup.events_decode device.name _ group,
    Json.deviceNotices, Json.itemsUnder_object found, Json.deviceName_object names.name]
  rw [← List.map_flatMap, ← List.filterMap_eq_flatMap_toList]

/-- A document that is decoded is met with the warnings about its groups, and nothing else. -/
theorem Manifest.events_decode (place : Location) (value : Json) (manifest : Manifest)
    (decoded : (Manifest.decode place value).result = .ok manifest) :
    (Manifest.decode place value).events = value.notices.map .warned := by
  obtain ⟨object, items, rfl, found, areDevices⟩ := (Manifest.decode_eq_ok_iff ..).1 decoded
  rw [Manifest.decode_object, Outcome.events_bind_pure, decodeItems_array _ _ _ _ _ items found,
    events_forEachAt _ (fun device => device.deviceNotices.map .warned) 0 items manifest.devices
      areDevices fun device _ position result given => Device.events_decode _ device result given,
    Json.notices, Json.itemsUnder_object found, List.map_flatMap]

end PinTable
