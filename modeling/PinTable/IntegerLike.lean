import PinTable.Json.Basic
import PinTable.Text.Blank
import PinTable.Text.Decimal

set_option autoImplicit false

namespace PinTable

/-- The integer, if a signed word of 64 bits holds it. -/
def toInt64? (value : Int) : Option Int :=
  if minInt64 ≤ value ∧ value ≤ maxInt64 then some value else none

theorem toInt64?_eq_some_iff (value result : Int) :
    toInt64? value = some result ↔ value = result ∧ minInt64 ≤ value ∧ value ≤ maxInt64 := by
  unfold toInt64?
  split
  · next inside => simp [inside]
  · next outside => simpa using fun same lower => by simpa [← same, lower] using outside

namespace Json

/-- The integer that a value stands for. A number loses its fraction and is moved into the signed
64-bit range, a flag counts as one or zero, and a text holds a decimal integer of that range with
optional white space around it. -/
def integerLike? : Json → Option Int
  | number value => some value.toInt64
  | bool flag => some (if flag then 1 else 0)
  | string text => (readInt? (trimBlank text.toList)).bind toInt64?
  | _ => none

end Json

end PinTable
