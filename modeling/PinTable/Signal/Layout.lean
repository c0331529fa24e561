import PinTable.Json.Basic

set_option autoImplicit false

namespace PinTable

/-- A signal, which counts only if it has a name. -/
structure Signal where
  name : Option String

/-- A block of memory with its signals, group by group. -/
structure MemoryBlock where
  name : Option String
  groups : List (List Signal)

structure SignalDocument where
  name : Option String
  blocks : Option (List MemoryBlock)

namespace Json

/-- The fields of a record. An array lists them in order: the first `least` of them have to be
there, and none may follow the last. -/
def recordFields? (names : List String) (least : Nat) : Json → Option (Entries Json)
  | object entries => some entries
  | array items =>
      if least ≤ items.length ∧ items.length ≤ names.length then some (names.zip items) else none
  | _ => none

/-- A text field that may be absent or null. -/
def nullableText? (fields : Entries Json) (key : String) : Option (Option String) :=
  match Entries.find? key fields with
  | none => some none
  | some null => some none
  | some (string text) => some (some text)
  | some _ => none

/-- A list field that may be absent, with the records in it. -/
def listField? {α : Type} (item : Json → Option α) (fields : Entries Json) (key : String) :
    Option (List α) :=
  match Entries.find? key fields with
  | none => some []
  | some (array items) => items.mapM item
  | some _ => none

/-- A list field that may be absent or null, which counts as no list. -/
def nullableList? {α : Type} (item : Json → Option α) (fields : Entries Json) (key : String) :
    Option (Option (List α)) :=
  match Entries.find? key fields with
  | none => some none
  | some null => some none
  | some (array items) => (items.mapM item).map some
  | some _ => none

end Json

namespace SignalDocument

def signal? (value : Json) : Option Signal := do
  let fields ← value.recordFields? ["name"] 1
  let name ← Json.nullableText? fields "name"
  return ⟨name⟩

def group? (value : Json) : Option (List Signal) := do
  let fields ← value.recordFields? ["signals"] 0
  Json.listField? signal? fields "signals"

def block? (value : Json) : Option MemoryBlock := do
  let fields ← value.recordFields? ["name", "groups"] 1
  let name ← Json.nullableText? fields "name"
  let groups ← Json.listField? group? fields "groups"
  return ⟨name, groups⟩

def ofJson? (value : Json) : Option SignalDocument := do
  let fields ← value.recordFields? ["name", "mblk"] 2
  let name ← Json.nullableText? fields "name"
  let blocks ← Json.nullableList? block? fields "mblk"
  return ⟨name, blocks⟩

end SignalDocument

end PinTable
