import PinTable.Listing.Draft
import PinTable.Proofs.Json.DistinctKeys
import PinTable.Proofs.Manifest.Items
import PinTable.Proofs.Manifest.Records

set_option autoImplicit false

namespace PinTable

open Entries (find? keys)

/-- Arrays of items that are alike one by one. -/
inductive ItemsAlike (alike : Json → Json → Prop) : Json → Json → Prop
  | array {items others : List Json} (each : List.Forall₂ alike items others) :
      ItemsAlike alike (.array items) (.array others)

/-- Entries of the same key with the same value or, under one key, with arrays of items that are
alike. -/
def EntryAlike (key : String) (inner : Json → Json → Prop) (entry other : String × Json) : Prop :=
  entry.1 = other.1 ∧ (other.2 = entry.2 ∨ entry.1 = key ∧ ItemsAlike inner entry.2 other.2)

/-- The keys of an object stand in another order. So may, by `inner`, the keys of the items of the
array that it holds under one key. -/
inductive Rearranged (key : String) (inner : Json → Json → Prop) : Json → Json → Prop
  | same (value : Json) : Rearranged key inner value value
  | object {entries changed others : Entries Json}
      (each : List.Forall₂ (EntryAlike key inner) entries changed) (order : changed.Perm others) :
      Rearranged key inner (.object entries) (.object others)

/-- The keys of a pin stand in another order, its attributes in the same. -/
inductive PinRearranged : Json → Json → Prop
  | same (value : Json) : PinRearranged value value
  | object {entries others : Entries Json} (order : entries.Perm others)
      (attributes : others.filter (fun entry => !isStructural entry.1) =
        entries.filter fun entry => !isStructural entry.1) :
      PinRearranged (.object entries) (.object others)

def GroupRearranged : Json → Json → Prop := Rearranged "pins" PinRearranged

def DeviceRearranged : Json → Json → Prop := Rearranged "groups" GroupRearranged

/-- The keys of a document and of its devices, groups and pins stand in another order, the attributes
of each pin in the same. -/
def DocumentRearranged : Json → Json → Prop := Rearranged "io" DeviceRearranged

section Lookup

variable {key : String} {inner : Json → Json → Prop} {entries changed others : Entries Json}
  (each : List.Forall₂ (EntryAlike key inner) entries changed)

include each

theorem keys_alike : keys changed = keys entries := by
  induction each with
  | nil => rfl
  | cons alike _ ih => exact congrArg₂ List.cons alike.1.symm ih

theorem find?_alike (name : String) :
    find? name changed = find? name entries ∨ name = key ∧ ∃ items moved,
      find? name entries = some (.array items) ∧ find? name changed = some (.array moved) ∧
        List.Forall₂ inner items moved := by
  induction each with
  | nil => exact Or.inl rfl
  | @cons entry other _ _ alike _ ih =>
      obtain ⟨known, value⟩ := entry
      obtain ⟨_, changed⟩ := other
      obtain ⟨rfl, alike⟩ := alike
      simp only [Entries.find?_cons]
      by_cases here : known = name
      · simp only [if_pos here, Option.some_inj]
        obtain same | ⟨isKey, ⟨items⟩⟩ := alike
        · exact Or.inl same
        · exact Or.inr ⟨here.symm.trans isKey, _, _, rfl, rfl, items⟩
      · simp only [if_neg here]
        exact ih

variable (order : changed.Perm others) (distinct : (Json.object entries).DistinctKeys)

include order distinct

theorem find?_rearranged (name : String) :
    find? name others = find? name entries ∨ name = key ∧ ∃ items moved,
      find? name entries = some (.array items) ∧ find? name others = some (.array moved) ∧
        List.Forall₂ inner items moved := by
  have once : (keys changed).Nodup := by
    rw [keys_alike each]
    exact ((Json.distinctKeys_object_iff entries).1 distinct).1
  rw [Entries.find?_perm name once order]
  exact find?_alike each name

/-- Fields beside the array are found as before. -/
theorem find?_beside (name : String) (beside : name ≠ key) :
    find? name others = find? name entries :=
  (find?_rearranged each order distinct name).resolve_right fun found => beside found.1

/-- The array is decoded as before, if each of its items is. -/
theorem decodeItems_rearranged {β : Type} (missing : DecodeCause)
    (step : Location → Json → Decoding β) (place : Location)
    (items : ∀ place item other, inner item other → item.DistinctKeys →
      step place other = step place item) :
    decodeItems key missing step place others = decodeItems key missing step place entries := by
  obtain same | ⟨_, front, back, found, foundOther, alike⟩ :=
    find?_rearranged each order distinct key
  · rw [decodeItems, requireField_congr place missing same, decodeItems]
  · rw [decodeItems_array _ _ _ _ _ _ found, decodeItems_array _ _ _ _ _ _ foundOther]
    have itemsDistinct := (Json.distinctKeys_array_iff front).1 (distinct.of_find? found)
    apply forEachAt_congr
    refine (List.forall₂_and_left _ _).2 ⟨itemsDistinct, alike⟩ |>.imp ?_
    rintro item other ⟨itemDistinct, itemAlike⟩ position
    exact items _ item other itemAlike itemDistinct

end Lookup

variable {value other : Json}

theorem PinRearranged.decode (rearranged : PinRearranged value other) (distinct : value.DistinctKeys)
    (device : String) (kind : PinKind) (place : Location) :
    Pin.decode device kind place other = Pin.decode device kind place value := by
  cases rearranged with
  | same => rfl
  | @object entries others order attributes =>
      have once := ((Json.distinctKeys_object_iff entries).1 distinct).1
      have found (name : String) : find? name others = find? name entries :=
        Entries.find?_perm name once order
      simp only [Pin.decode_object, requireString_congr place _ (found _),
        stringField?_congr place (found _), integerField?_congr place (found _), attributesOf,
        attributes]

theorem GroupRearranged.decode (rearranged : GroupRearranged value other)
    (distinct : value.DistinctKeys) (device : String) (place : Location) :
    PinGroup.decode device place other = PinGroup.decode device place value := by
  cases rearranged with
  | same => rfl
  | @object entries changed others each order =>
      have named := find?_beside each order distinct "name" (by decide)
      cases isName : requireString entries "name" place (.missingGroupName device) with
      | error fault =>
          rw [PinGroup.decode_unnamed device place entries fault isName,
            PinGroup.decode_unnamed device place others fault
              ((requireString_congr place _ named).trans isName)]
      | ok kindName =>
          have found := (requireString_eq_ok_iff ..).1 isName
          have foundOther := named.trans found
          cases known : PinKind.ofName? kindName with
          | none =>
              rw [PinGroup.decode_unknown device place entries kindName found known,
                PinGroup.decode_unknown device place others kindName foundOther known]
          | some kind =>
              obtain rfl := PinKind.name_of_ofName? kindName kind known
              rw [PinGroup.decode_known device place entries kind found,
                PinGroup.decode_known device place others kind foundOther,
                decodeItems_rearranged each order distinct]
              intro place item other alike itemDistinct
              exact congrArg Outcome.ofExcept (alike.decode itemDistinct device kind place)

theorem DeviceRearranged.decode (rearranged : DeviceRearranged value other)
    (distinct : value.DistinctKeys) (place : Location) :
    Device.decode place other = Device.decode place value := by
  cases rearranged with
  | same => rfl
  | @object entries changed others each order =>
      have name := find?_beside each order distinct "name" (by decide)
      have base := find?_beside each order distinct "prefix" (by decide)
      have groups (device : String) := decodeItems_rearranged each order distinct
        (.missingGroups device) (PinGroup.decode device) place
        fun place item other alike itemDistinct => alike.decode itemDistinct device place
      rw [Device.decode_object, Device.decode_object, stringField?_congr place name,
        stringField?_congr place base]
      simp only [groups]

theorem DocumentRearranged.decode (rearranged : DocumentRearranged value other)
    (distinct : value.DistinctKeys) (place : Location) :
    Manifest.decode place other = Manifest.decode place value := by
  cases rearranged with
  | same => rfl
  | @object entries changed others each order =>
      rw [Manifest.decode_object, Manifest.decode_object,
        decodeItems_rearranged each order distinct]
      intro place item other alike itemDistinct
      exact alike.decode itemDistinct place

/-- Documents that differ only in the order of their keys, but for the attributes of pins, have the
same outcomes: the same devices or the same fault at the same place, with the same warnings. The
files of their manifests are the same. No document that is read repeats a key in an object, see
`Json.distinctKeys_of_loadDocument`. -/
theorem order_of_keys_unseen (documents others : List (String × Json))
    (distinct : ∀ document ∈ documents, document.2.DistinctKeys)
    (rearranged : List.Forall₂ (fun document other => document.1 = other.1 ∧
      DocumentRearranged document.2 other.2) documents others) :
    others.map Manifest.ofDocument = documents.map Manifest.ofDocument ∧
    ∀ guard signals manifests changed, DecodedAs documents manifests → DecodedAs others changed →
      (Listing.ofManifests guard signals changed).headerText =
        (Listing.ofManifests guard signals manifests).headerText ∧
      (Listing.ofManifests guard signals changed).sourceText =
        (Listing.ofManifests guard signals manifests).sourceText := by
  have outcomes : others.map Manifest.ofDocument = documents.map Manifest.ofDocument := by
    rw [eq_comm, ← List.forall₂_eq_eq_eq, List.forall₂_map_left_iff, List.forall₂_map_right_iff]
    refine ((List.forall₂_and_left _ _).2 ⟨distinct, rearranged⟩).imp ?_
    rintro ⟨name, value⟩ ⟨_, other⟩ ⟨valueDistinct, rfl, alike⟩
    exact (alike.decode valueDistinct (.root name)).symm
  refine ⟨outcomes, ?_⟩
  intro guard signals manifests changed decoded decodedOthers
  rw [decodedAs_iff] at decoded decodedOthers
  rw [outcomes, decoded] at decodedOthers
  have ok : Function.Injective (Except.ok : Manifest → Decoded Manifest) := fun _ _ => Except.ok.inj
  rw [ok.list_map decodedOthers]
  exact ⟨rfl, rfl⟩

/-- A document whose objects hold their second keys first if these are moved. -/
def documentOfMovedKeys (moved : Bool) : Json :=
  let object (first second : Entries Json) : Json :=
    .object (if moved then second ++ first else first ++ second)
  object [("title", .string "board")] [("io", .array [
    object [("name", .string "board")] [("groups", .array [
      object [("name", .string "inputs")] [("pins", .array [
        object [("name", .string "door"), ("group", .string "safety")]
          [("pull-up", .bool true), ("touch", .null)]])]])]])]

/-- An object whose array is moved to the front. -/
theorem Rearranged.of_front (key : String) (inner : Json → Json → Prop) (first : Entries Json)
    {items moved : List Json} (each : List.Forall₂ inner items moved) :
    Rearranged key inner (.object (first ++ [(key, .array items)]))
      (.object ([(key, .array moved)] ++ first)) := by
  refine .object ?_ List.perm_append_comm
  refine List.rel_append (List.forall₂_same.2 fun entry _ => ⟨rfl, Or.inl rfl⟩) ?_
  exact .cons ⟨rfl, Or.inr ⟨rfl, .array each⟩⟩ .nil

theorem documentRearranged_documentOfMovedKeys :
    DocumentRearranged (documentOfMovedKeys false) (documentOfMovedKeys true) := by
  apply Rearranged.of_front
  refine .cons (.of_front _ _ _ (.cons (.of_front _ _ _ (.cons ?_ .nil)) .nil)) .nil
  exact .object List.perm_append_comm rfl

def manifestOfMovedKeys : Manifest :=
  let device := ((Location.root "io.json").key "io").index 0
  let group := (device.key "groups").index 0
  ⟨[⟨"board", "pins", [⟨.inputs, [⟨"door", 0, 0, some "safety", none, none,
    [⟨"pull-up", .bool true⟩, ⟨"touch", .null⟩], (group.key "pins").index 0⟩], group⟩], device⟩]⟩

theorem order_of_keys_unseen_documentOfMovedKeys :
    DocumentRearranged (documentOfMovedKeys false) (documentOfMovedKeys true) ∧
    [("io.json", documentOfMovedKeys true)].map Manifest.ofDocument =
      [("io.json", documentOfMovedKeys false)].map Manifest.ofDocument ∧
    ∃ changed, DecodedAs [("io.json", documentOfMovedKeys true)] changed ∧ ∀ guard signals,
      (Listing.ofManifests guard signals changed).headerText =
        (Listing.ofManifests guard signals [manifestOfMovedKeys]).headerText ∧
      (Listing.ofManifests guard signals changed).sourceText =
        (Listing.ofManifests guard signals [manifestOfMovedKeys]).sourceText := by
  have distinct : (documentOfMovedKeys false).DistinctKeys := by
    simp [documentOfMovedKeys, Entries.keys]
  have rearranged := documentRearranged_documentOfMovedKeys
  have decoded (moved : Bool) :
      DecodedAs [("io.json", documentOfMovedKeys moved)] [manifestOfMovedKeys] := by
    refine .cons ?_ .nil
    cases moved <;> rfl
  obtain ⟨outcomes, files⟩ := order_of_keys_unseen [("io.json", documentOfMovedKeys false)]
    [("io.json", documentOfMovedKeys true)] (List.forall_mem_singleton.2 distinct)
    (.cons ⟨rfl, rearranged⟩ .nil)
  refine ⟨rearranged, outcomes, _, decoded true, ?_⟩
  intro guard signals
  exact files guard signals _ _ (decoded false) (decoded true)

end PinTable
