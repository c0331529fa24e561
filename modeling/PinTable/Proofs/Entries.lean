import Mathlib.Data.List.Nodup
import PinTable.Entries

set_option autoImplicit false

namespace PinTable.Entries

variable {κ α β : Type} [DecidableEq κ]

theorem mem_of_find? (key : κ) (value : α) (entries : EntriesBy κ α)
    (found : find? key entries = some value) : (key, value) ∈ entries := by
  induction entries with
  | nil => cases found
  | cons entry rest ih =>
      obtain ⟨known, old⟩ := entry
      rw [find?_cons] at found
      split at found
      · next same =>
          cases found
          rw [same]
          exact List.mem_cons_self ..
      · exact List.mem_cons_of_mem _ (ih found)

/-- Dropping entries of other keys does not change what a key leads to. -/
theorem find?_filter (key : κ) (keep : κ × α → Bool) (entries : EntriesBy κ α)
    (kept : ∀ value, keep (key, value) = true) :
    find? key (entries.filter keep) = find? key entries := by
  induction entries with
  | nil => rfl
  | cons entry rest ih =>
      obtain ⟨known, value⟩ := entry
      by_cases same : known = key
      · subst same
        rw [List.filter_cons_of_pos (kept value), find?_cons, find?_cons, if_pos rfl, if_pos rfl]
      · rw [find?_cons, if_neg same, ← ih, List.filter_cons]
        split
        · rw [find?_cons, if_neg same]
        · rfl

/-- Changing values does not change which keys lead to one. -/
theorem find?_map (key : κ) (change : κ → α → β) (entries : EntriesBy κ α) :
    find? key (entries.map fun entry => (entry.1, change entry.1 entry.2)) =
      (find? key entries).map (change key) := by
  induction entries with
  | nil => rfl
  | cons entry rest ih =>
      obtain ⟨known, value⟩ := entry
      rw [List.map_cons, find?_cons, find?_cons, ih]
      split
      · next same => rw [← same]; rfl
      · rfl

/-- Keys that keep apart lead to the same values under other names. -/
theorem find?_map_key {κ' : Type} [DecidableEq κ'] (key : κ) (name : κ → κ')
    (apart : ∀ one other, name one = name other → one = other) (entries : EntriesBy κ α) :
    find? (name key) (entries.map fun entry => (name entry.1, entry.2)) = find? key entries := by
  induction entries with
  | nil => rfl
  | cons entry rest ih =>
      obtain ⟨known, value⟩ := entry
      have same : name known = name key ↔ known = key := ⟨apart known key, congrArg name⟩
      rw [List.map_cons, find?_cons, find?_cons, ih]
      simp only [same]

theorem find?_eq_some_iff (key : κ) (value : α) (entries : EntriesBy κ α)
    (once : (keys entries).Nodup) : find? key entries = some value ↔ (key, value) ∈ entries := by
  refine ⟨mem_of_find? key value entries, ?_⟩
  induction entries with
  | nil => exact fun member => absurd member List.not_mem_nil
  | cons entry rest ih =>
      obtain ⟨known, old⟩ := entry
      obtain ⟨fresh, others⟩ := List.nodup_cons.1 once
      intro member
      rw [find?_cons]
      rcases List.mem_cons.1 member with same | later
      · cases same
        exact if_pos rfl
      · have different : known ≠ key := by
          rintro rfl
          exact fresh (List.mem_map.2 ⟨_, later, rfl⟩)
        rw [if_neg different]
        exact ih others later

/-- Where no key is repeated, dropping an entry leaves its key without a value. -/
theorem find?_filter_of_nodup (key : κ) (keep : κ × α → Bool) (entries : EntriesBy κ α)
    (once : (keys entries).Nodup) :
    find? key (entries.filter keep) = (find? key entries).filter fun value => keep (key, value) := by
  induction entries with
  | nil => rfl
  | cons entry rest ih =>
      obtain ⟨known, value⟩ := entry
      obtain ⟨fresh, others⟩ := List.nodup_cons.1 once
      rw [find?_cons, List.filter_cons]
      by_cases same : known = key
      · subst same
        have gone : find? known (rest.filter keep) = none := by
          rw [ih others, (find?_eq_none_iff known rest).2 fresh, Option.filter_none]
        by_cases kept : keep (known, value) = true
        · simp only [if_pos kept, find?_cons, if_true, Option.filter_some]
        · simp only [if_neg kept, gone, if_true, Option.filter_some]
      · rw [if_neg same, ← ih others]
        split
        · rw [find?_cons, if_neg same]
        · rfl

/-- Entries with distinct keys are looked up the same in any order. -/
theorem find?_perm (key : κ) {entries others : EntriesBy κ α} (once : (keys entries).Nodup)
    (order : entries.Perm others) : find? key others = find? key entries := by
  have stillOnce : (keys others).Nodup := (order.map Prod.fst).nodup_iff.1 once
  apply Option.ext
  intro value
  rw [find?_eq_some_iff key value others stillOnce, find?_eq_some_iff key value entries once]
  exact order.symm.mem_iff

/-- Setting a key keeps keys distinct. -/
theorem nodup_keys_put (key : κ) (value : α) (entries : EntriesBy κ α)
    (once : (keys entries).Nodup) : (keys (put key value entries)).Nodup := by
  rw [keys_put]
  split
  · exact once
  · next fresh =>
      rw [List.nodup_append]
      refine ⟨once, List.nodup_singleton key, ?_⟩
      rintro known isKnown other isOther rfl
      rw [List.mem_singleton.1 isOther] at isKnown
      exact fresh isKnown

theorem mem_put (key : κ) (value : α) (entries : EntriesBy κ α) (entry : κ × α)
    (member : entry ∈ put key value entries) : entry = (key, value) ∨ entry ∈ entries := by
  induction entries with
  | nil => exact Or.inl (List.mem_singleton.1 member)
  | cons first rest ih =>
      obtain ⟨known, old⟩ := first
      rw [put] at member
      split at member
      · exact (List.mem_cons.1 member).imp_right (List.mem_cons_of_mem _)
      · rcases List.mem_cons.1 member with same | later
        · exact Or.inr (List.mem_cons.2 (Or.inl same))
        · exact (ih later).imp_right (List.mem_cons_of_mem _)

end PinTable.Entries
