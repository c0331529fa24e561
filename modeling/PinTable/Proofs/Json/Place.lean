import PinTable.Json.Basic
import PinTable.Location

set_option autoImplicit false

namespace PinTable

namespace Json

/-- The part of a value that a step leads to. -/
def part? : Json → Step → Option Json
  | object entries, .key name => Entries.find? name entries
  | array items, .index position => items[position]?
  | _, _ => none

/-- The value that steps lead to, one after the other. -/
def at? (value : Json) : List Step → Option Json
  | [] => some value
  | step :: rest => (value.part? step).bind fun part => part.at? rest

theorem at?_append (value : Json) (first second : List Step) :
    value.at? (first ++ second) = (value.at? first).bind fun part => part.at? second := by
  induction first generalizing value with
  | nil => rfl
  | cons step rest ih =>
      rw [List.cons_append, at?, at?]
      cases value.part? step with
      | none => rfl
      | some part => exact ih part

end Json

/-- The items of an array under a key are inside of the object with the key. -/
theorem Location.steps_prefix_item (place : Location) (name : String) (position : Nat) :
    place.steps <+: ((place.key name).index position).steps :=
  (List.prefix_append _ _).trans (List.prefix_append _ _)

/-- The steps of a place lead from the root of its document to a value. -/
def Location.Holds (place : Location) (root value : Json) : Prop :=
  root.at? place.steps = some value

namespace Location.Holds

theorem root (document : String) (value : Json) : (Location.root document).Holds value value := rfl

section Parts

variable {place : Location} {document : Json}

theorem key {entries : Entries Json} (holds : place.Holds document (.object entries))
    (name : String) (part : Json) (found : Entries.find? name entries = some part) :
    (place.key name).Holds document part := by
  show document.at? (place.steps ++ [.key name]) = some part
  rw [Json.at?_append, holds, Option.bind_some, Json.at?, Json.part?, found]
  rfl

theorem index {items : List Json} (holds : place.Holds document (.array items)) (position : Nat)
    (item : Json) (found : items[position]? = some item) :
    (place.index position).Holds document item := by
  show document.at? (place.steps ++ [.index position]) = some item
  rw [Json.at?_append, holds, Option.bind_some, Json.at?, Json.part?, found]
  rfl

end Parts

end Location.Holds

end PinTable
