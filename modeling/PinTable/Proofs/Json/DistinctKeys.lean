import PinTable.Document
import PinTable.Proofs.Entries

set_option autoImplicit false

namespace PinTable.Json

open Entries (keys put find?)

/-- No object of the value repeats a key. -/
inductive DistinctKeys : Json → Prop
  | null : DistinctKeys null
  | bool (flag : Bool) : DistinctKeys (bool flag)
  | number (value : Number) : DistinctKeys (number value)
  | string (text : String) : DistinctKeys (string text)
  | array {items : List Json} (each : ∀ item ∈ items, DistinctKeys item) : DistinctKeys (array items)
  | object {entries : Entries Json} (once : (keys entries).Nodup)
      (each : ∀ entry ∈ entries, DistinctKeys entry.2) : DistinctKeys (object entries)

attribute [simp] DistinctKeys.null DistinctKeys.bool DistinctKeys.number DistinctKeys.string

@[simp] theorem distinctKeys_array_iff (items : List Json) :
    (array items).DistinctKeys ↔ ∀ item ∈ items, item.DistinctKeys :=
  ⟨fun | .array each => each, .array⟩

@[simp] theorem distinctKeys_object_iff (entries : Entries Json) :
    (object entries).DistinctKeys ↔
      (keys entries).Nodup ∧ ∀ entry ∈ entries, entry.2.DistinctKeys :=
  ⟨fun | .object once each => ⟨once, each⟩, fun both => .object both.1 both.2⟩

/-- The values of an object have distinct keys as the object has. -/
theorem DistinctKeys.of_find? {entries : Entries Json}
    (distinct : (Json.object entries).DistinctKeys) {key : String} {value : Json}
    (found : find? key entries = some value) : value.DistinctKeys :=
  ((distinctKeys_object_iff entries).1 distinct).2 (key, value) (Entries.mem_of_find? _ _ _ found)

theorem distinctKeys_ofEntries (entries : Entries Json)
    (each : ∀ entry ∈ entries, entry.2.DistinctKeys) : (ofEntries entries).DistinctKeys := by
  have none : (object []).DistinctKeys :=
    .object List.nodup_nil fun _ member => absurd member List.not_mem_nil
  refine List.foldlRecOn (motive := fun known => (object known).DistinctKeys) entries _ none ?_
  intro known distinct entry isEntry
  obtain ⟨once, values⟩ := (distinctKeys_object_iff known).1 distinct
  refine .object (Entries.nodup_keys_put _ _ known once) ?_
  intro other member
  rcases Entries.mem_put _ _ known other member with rfl | old
  · exact each entry isEntry
  · exact values other old

/-- Whatever a reader takes off a text is such. -/
def Reads {α : Type} (such : α → Prop) (reader : Reader α) : Prop :=
  ∀ text value rest, reader text = some (value, rest) → such value

section Readers

variable {item : Reader Json} (reads : Reads DistinctKeys item)

include reads

theorem reads_readItems (fuel : Nat) :
    Reads (fun items => ∀ value ∈ items, value.DistinctKeys) (readItems item fuel) := by
  induction fuel with
  | zero => exact fun _ _ _ read => by cases read
  | succ fuel ih =>
      intro text items left read
      obtain ⟨⟨first, rest⟩, isFirst, read⟩ := Option.bind_eq_some_iff.1 read
      have distinct := reads text first rest isFirst
      dsimp only at read
      split at read
      · cases read
        exact List.forall_mem_singleton.2 distinct
      · obtain ⟨⟨others, after⟩, areOthers, read⟩ := Option.bind_eq_some_iff.1 read
        cases read
        exact List.forall_mem_cons.2 ⟨distinct, ih _ _ _ areOthers⟩
      · cases read

theorem reads_readEntry :
    Reads (fun entry : String × Json => entry.2.DistinctKeys) (readEntry item) := by
  intro text entry left read
  unfold readEntry at read
  split at read
  · obtain ⟨⟨key, rest⟩, _, read⟩ := Option.bind_eq_some_iff.1 read
    dsimp only at read
    split at read
    · obtain ⟨⟨value, after⟩, isValue, read⟩ := Option.bind_eq_some_iff.1 read
      cases read
      exact reads _ value after isValue
    · cases read
  · cases read

theorem reads_readEntries (fuel : Nat) :
    Reads (fun entries : Entries Json => ∀ entry ∈ entries, entry.2.DistinctKeys)
      (readEntries item fuel) := by
  induction fuel with
  | zero => exact fun _ _ _ read => by cases read
  | succ fuel ih =>
      intro text entries left read
      obtain ⟨⟨first, rest⟩, isFirst, read⟩ := Option.bind_eq_some_iff.1 read
      have distinct := reads_readEntry reads text first rest isFirst
      dsimp only at read
      split at read
      · cases read
        exact List.forall_mem_singleton.2 distinct
      · obtain ⟨⟨others, after⟩, areOthers, read⟩ := Option.bind_eq_some_iff.1 read
        cases read
        exact List.forall_mem_cons.2 ⟨distinct, ih _ _ _ areOthers⟩
      · cases read

theorem reads_readArray : Reads DistinctKeys (readArray item) := by
  intro text value left read
  unfold readArray at read
  split at read
  · cases read
    exact .array fun _ member => absurd member List.not_mem_nil
  · obtain ⟨⟨items, rest⟩, areItems, same⟩ := Option.map_eq_some_iff.1 read
    cases same
    exact .array (reads_readItems reads _ _ items left areItems)

theorem reads_readObject : Reads DistinctKeys (readObject item) := by
  intro text value left read
  unfold readObject at read
  split at read
  · cases read
    exact .object List.nodup_nil fun _ member => absurd member List.not_mem_nil
  · obtain ⟨⟨entries, rest⟩, areEntries, same⟩ := Option.map_eq_some_iff.1 read
    cases same
    exact distinctKeys_ofEntries entries (reads_readEntries reads _ _ entries left areEntries)

end Readers

theorem reads_readScalar : Reads DistinctKeys readScalar := by
  intro text value left read
  unfold readScalar at read
  split at read
  · cases read
    exact .null
  · cases read
    exact .bool true
  · cases read
    exact .bool false
  · obtain ⟨⟨chars, rest⟩, _, same⟩ := Option.map_eq_some_iff.1 read
    cases same
    exact .string _
  · obtain ⟨⟨literal, rest⟩, _, read⟩ := Option.bind_eq_some_iff.1 read
    obtain ⟨number, _, read⟩ := Option.bind_eq_some_iff.1 read
    cases read
    exact .number number

theorem reads_readValue (depth : Nat) : Reads DistinctKeys (readValue depth) := by
  induction depth with
  | zero =>
      intro text value left read
      unfold readValue at read
      split at read
      · cases read
      · cases read
      · exact reads_readScalar _ value left read
  | succ depth ih =>
      intro text value left read
      unfold readValue at read
      split at read
      · exact reads_readArray ih _ value left read
      · exact reads_readObject ih _ value left read
      · exact reads_readScalar _ value left read

/-- No object of a document that is read repeats a key, even where its text does. -/
theorem distinctKeys_of_read? (text : List Char) (value : Json) (read : read? text = some value) :
    value.DistinctKeys := by
  obtain ⟨⟨found, rest⟩, isValue, read⟩ := Option.bind_eq_some_iff.1 read
  dsimp only at read
  split at read
  · cases read
    exact reads_readValue greatestDepth text value rest isValue
  · cases read

theorem distinctKeys_of_loadDocument (path : String) (reading : Reading) (value : Json)
    (loaded : loadDocument path reading = .ok value) : value.DistinctKeys := by
  unfold loadDocument at loaded
  split at loaded
  · cases loaded
  · cases loaded
  · split at loaded
    · next found read =>
        cases loaded
        obtain ⟨text, _, read⟩ := Option.bind_eq_some_iff.1 read
        exact distinctKeys_of_read? text.toList _ read
    · cases loaded

end PinTable.Json
