set_option autoImplicit false

namespace PinTable

/-- Values by keys of some type, in order. -/
abbrev EntriesBy (κ α : Type) : Type := List (κ × α)

abbrev Entries (α : Type) : Type := EntriesBy String α

namespace Entries

variable {κ α : Type} [DecidableEq κ]

def put (key : κ) (value : α) : EntriesBy κ α → EntriesBy κ α
  | [] => [(key, value)]
  | (known, old) :: rest =>
      if known = key then (key, value) :: rest else (known, old) :: put key value rest

/-- The value of a key, the first if there are several. -/
def find? (key : κ) : EntriesBy κ α → Option α
  | [] => none
  | (known, value) :: rest => if known = key then some value else find? key rest

def keys (entries : EntriesBy κ α) : List κ := entries.map Prod.fst

@[simp] theorem find?_nil (key : κ) : find? key ([] : EntriesBy κ α) = none := rfl

theorem find?_cons (key known : κ) (value : α) (rest : EntriesBy κ α) :
    find? key ((known, value) :: rest) = if known = key then some value else find? key rest := rfl

theorem find?_put_self (key : κ) (value : α) (entries : EntriesBy κ α) :
    find? key (put key value entries) = some value := by
  induction entries with
  | nil => simp [put, find?]
  | cons entry rest ih =>
      obtain ⟨known, old⟩ := entry
      by_cases same : known = key
      · simp [put, find?, same]
      · simp [put, find?, same, ih]

theorem find?_put_other (key other : κ) (value : α) (entries : EntriesBy κ α)
    (different : other ≠ key) : find? other (put key value entries) = find? other entries := by
  induction entries with
  | nil => simp [put, find?, different.symm]
  | cons entry rest ih =>
      obtain ⟨known, old⟩ := entry
      by_cases same : known = key
      · subst same
        simp [put, find?, different.symm]
      · simp [put, find?, same, ih]

theorem find?_eq_none_iff (key : κ) (entries : EntriesBy κ α) :
    find? key entries = none ↔ key ∉ keys entries := by
  induction entries with
  | nil => simp [keys]
  | cons entry rest ih =>
      obtain ⟨known, old⟩ := entry
      by_cases same : known = key
      · simp [find?, keys, same]
      · simpa [find?, keys, same, Ne.symm (Ne.intro same)] using ih

/-- Setting a key adds it at the end, or nowhere if it is there. -/
theorem keys_put (key : κ) (value : α) (entries : EntriesBy κ α) :
    keys (put key value entries) =
      if key ∈ keys entries then keys entries else keys entries ++ [key] := by
  induction entries with
  | nil => simp [put, keys]
  | cons entry rest ih =>
      obtain ⟨known, old⟩ := entry
      by_cases same : known = key
      · simp [put, keys, same]
      · simp only [keys] at ih
        by_cases member : key ∈ rest.map Prod.fst <;>
          simp [put, keys, same, ih, member, Ne.symm (Ne.intro same)]

end Entries

end PinTable
