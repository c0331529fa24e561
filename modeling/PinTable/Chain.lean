set_option autoImplicit false

namespace PinTable

/-- What a reference leads to: an item, and the reference that the item holds. -/
abbrev Links (ρ α : Type) : Type := ρ → Option (α × ρ)

namespace Links

variable {ρ α : Type}

/-- The items on the way from a reference, at most so many. -/
def follow (links : Links ρ α) : Nat → ρ → List α
  | 0, _ => []
  | count + 1, reference =>
      match links reference with
      | none => []
      | some (item, next) => item :: follow links count next

/-- References to records by position: each record holds the position of the next, if there is
one. -/
def ofRecords {β : Type} (next : β → Option Nat) (records : List β) : Links (Option Nat) Nat :=
  fun reference => reference.bind fun position =>
    records[position]?.map fun record => (position, next record)

end Links

/-- The walk from a reference visits exactly these items in order, and ends at the null
reference. -/
inductive Walk {ρ α : Type} (links : Links ρ α) (null : ρ) : ρ → List α → Prop
  | stop : Walk links null null []
  | step {reference next : ρ} {item : α} {rest : List α}
      (leads : links reference = some (item, next)) (others : Walk links null next rest) :
      Walk links null reference (item :: rest)

end PinTable
