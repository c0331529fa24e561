import Mathlib.Data.List.Induction
import PinTable.Entries

set_option autoImplicit false

namespace PinTable

section Order

variable {κ : Type} [DecidableEq κ]

theorem eraseDups_concat (keys : List κ) (key : κ) :
    (keys ++ [key]).eraseDups =
      if key ∈ keys then keys.eraseDups else keys.eraseDups ++ [key] := by
  rw [List.eraseDups_append, List.removeAll]
  by_cases known : key ∈ keys
  · simp [known]
  · simp [known, List.eraseDups_cons]

theorem nodup_eraseDups (keys : List κ) : keys.eraseDups.Nodup := by
  induction keys using List.reverseRecOn with
  | nil => exact List.nodup_nil
  | append_singleton keys key ih =>
      rw [eraseDups_concat]
      split
      · exact ih
      · next fresh =>
          refine List.nodup_append.2 ⟨ih, List.pairwise_singleton _ key, ?_⟩
          intro earlier member last same
          rw [List.mem_singleton.1 same]
          rintro rfl
          exact fresh (List.mem_eraseDups.1 member)

def positionsOf (key : κ) (keys : List κ) : List Nat :=
  (keys.zipIdx.filter fun entry => entry.1 = key).map Prod.snd

theorem positionsOf_concat_self (keys : List κ) (key : κ) :
    positionsOf key (keys ++ [key]) = positionsOf key keys ++ [keys.length] := by
  simp [positionsOf, List.zipIdx_append]

theorem positionsOf_concat_other (keys : List κ) (key other : κ) (different : other ≠ key) :
    positionsOf other (keys ++ [key]) = positionsOf other keys := by
  simp [positionsOf, List.zipIdx_append, Ne.symm different]

theorem mem_positionsOf (key : κ) (keys : List κ) (position : Nat) :
    position ∈ positionsOf key keys ↔ keys[position]? = some key := by
  simp [positionsOf, List.mem_zipIdx_iff_getElem?]

theorem positionsOf_eq_nil (key : κ) (keys : List κ) (absent : key ∉ keys) :
    positionsOf key keys = [] := by
  rw [List.eq_nil_iff_forall_not_mem]
  intro position member
  exact absent (List.mem_of_getElem? ((mem_positionsOf key keys position).1 member))

def itemsOf {α : Type} (key : κ) (pairs : List (κ × α)) : List α :=
  (pairs.filter fun pair => pair.1 = key).map Prod.snd

theorem itemsOf_concat_self {α : Type} (pairs : List (κ × α)) (key : κ) (item : α) :
    itemsOf key (pairs ++ [(key, item)]) = itemsOf key pairs ++ [item] := by
  simp [itemsOf]

theorem itemsOf_concat_other {α : Type} (pairs : List (κ × α)) (key other : κ) (item : α)
    (different : other ≠ key) : itemsOf other (pairs ++ [(key, item)]) = itemsOf other pairs := by
  simp [itemsOf, Ne.symm different]

/-- At the positions of a key stand its items. -/
theorem map_getElem?_positionsOf {α : Type} (key : κ) (pairs : List (κ × α)) :
    (positionsOf key (pairs.map Prod.fst)).map (fun position => (pairs.map Prod.snd)[position]?) =
      (itemsOf key pairs).map some := by
  induction pairs using List.reverseRecOn with
  | nil => rfl
  | append_singleton pairs pair ih =>
      obtain ⟨known, item⟩ := pair
      have kept : (positionsOf key (pairs.map Prod.fst)).map
          (fun position => (pairs.map Prod.snd ++ [item])[position]?) =
            (itemsOf key pairs).map some := by
        rw [← ih]
        apply List.map_congr_left
        intro position member
        have inside := (List.getElem?_eq_some_iff.1 ((mem_positionsOf key _ position).1 member)).1
        rw [List.length_map] at inside
        exact List.getElem?_append_left (by rwa [List.length_map])
      simp only [List.map_append, List.map_cons, List.map_nil]
      by_cases same : key = known
      · subst same
        have last : (pairs.map Prod.snd ++ [item])[(pairs.map Prod.fst).length]? = some item := by
          rw [List.length_map, ← List.length_map (f := Prod.snd), List.getElem?_concat_length]
        rw [itemsOf_concat_self, positionsOf_concat_self, List.map_append, List.map_append, kept,
          List.map_singleton, List.map_singleton, last]
      · rw [itemsOf_concat_other pairs known key item same,
          positionsOf_concat_other _ known key same, kept]

/-- The newest item of a key stands at its last position. -/
theorem getLast?_itemsOf {α : Type} (key : κ) (pairs : List (κ × α)) :
    (itemsOf key pairs).getLast? =
      (positionsOf key (pairs.map Prod.fst)).getLast?.bind
        fun position => (pairs.map Prod.snd)[position]? := by
  have same := congrArg List.getLast? (map_getElem?_positionsOf key pairs)
  rw [List.getLast?_map, List.getLast?_map] at same
  cases newest : (positionsOf key (pairs.map Prod.fst)).getLast? with
  | none =>
      rw [newest, Option.map_none] at same
      exact Option.map_eq_none_iff.1 same.symm
  | some position =>
      rw [newest, Option.map_some] at same
      obtain ⟨item, last, there⟩ := Option.map_eq_some_iff.1 same.symm
      rw [last, Option.bind_some, ← there]

theorem length_positionsOf_le (key : κ) (keys : List κ) :
    (positionsOf key keys).length ≤ keys.length := by
  rw [positionsOf, List.length_map, ← List.length_zipIdx (l := keys) (i := 0)]
  exact List.length_filter_le _ _

theorem itemsOf_eq_nil {α : Type} (key : κ) (pairs : List (κ × α))
    (absent : key ∉ pairs.map Prod.fst) : itemsOf key pairs = [] := by
  have same := map_getElem?_positionsOf key pairs
  rw [positionsOf_eq_nil key _ absent] at same
  exact List.map_eq_nil_iff.1 same.symm

end Order

section Index

variable {κ α : Type} [DecidableEq κ]

theorem put_of_absent (key : κ) (value : α) (entries : EntriesBy κ α)
    (absent : key ∉ Entries.keys entries) :
    Entries.put key value entries = entries ++ [(key, value)] := by
  induction entries with
  | nil => rfl
  | cons entry rest ih =>
      obtain ⟨known, old⟩ := entry
      simp only [Entries.keys, List.map_cons, List.mem_cons, not_or] at absent
      rw [Entries.put, if_neg (Ne.symm absent.1), ih absent.2, List.cons_append]

/-- A change of one record is a change of what is read off it. -/
theorem map_modify {β : Type} (read : α → β) (change : α → α) (seen : β → β)
    (agree : ∀ record, read (change record) = seen (read record)) (records : List α)
    (slot : Nat) : (records.modify slot change).map read = (records.map read).modify slot seen := by
  apply List.ext_getElem?
  intro other
  rw [List.getElem?_map, List.getElem?_modify, List.getElem?_modify, List.getElem?_map]
  by_cases same : slot = other <;> cases records[other]? <;> simp [same, agree]

/-- What every look-up finds is found by all look-ups together. -/
theorem filterMap_of_map {β : Type} (find : α → Option β) (records : List α) (found : List β)
    (each : records.map find = found.map some) : records.filterMap find = found := by
  have all : records.filterMap find = (records.map find).filterMap id := by
    rw [List.filterMap_map]
    rfl
  rw [all, each, List.filterMap_map]
  exact List.filterMap_some

/-- Numbered keys are found at their positions. -/
theorem getElem?_of_find?_zipIdx (key : κ) (keys : List κ) (first position : Nat)
    (found : Entries.find? key (keys.zipIdx first) = some position) :
    first ≤ position ∧ keys[position - first]? = some key := by
  induction keys generalizing first with
  | nil => cases found
  | cons known rest ih =>
      rw [List.zipIdx_cons, Entries.find?_cons] at found
      split at found
      · next same =>
          cases found
          simp [same]
      · obtain ⟨later, member⟩ := ih (first + 1) found
        refine ⟨by omega, ?_⟩
        rwa [show position - first = (position - (first + 1)) + 1 by omega,
            List.getElem?_cons_succ]

theorem find?_zipIdx_eq_none (key : κ) (keys : List κ) :
    Entries.find? key keys.zipIdx = none ↔ key ∉ keys := by
  rw [Entries.find?_eq_none_iff, Entries.keys, List.zipIdx_map_fst]

end Index

end PinTable
