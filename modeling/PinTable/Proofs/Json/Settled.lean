import Mathlib.Data.List.Forall2
import PinTable.Proofs.Chain.Keyed
import PinTable.Proofs.Json.DistinctKeys

set_option autoImplicit false

namespace PinTable

namespace Entries

variable {κ α β : Type} [DecidableEq κ]

/-- Entries as they are taken in one after the other. -/
def settled (entries : EntriesBy κ α) : EntriesBy κ α :=
  entries.foldl (fun known entry => put entry.1 entry.2 known) []

theorem settled_concat (entries : EntriesBy κ α) (entry : κ × α) :
    settled (entries ++ [entry]) = put entry.1 entry.2 (settled entries) :=
  List.foldl_concat ..

/-- Each key keeps its first place. -/
theorem keys_settled (entries : EntriesBy κ α) :
    keys (settled entries) = (keys entries).eraseDups := by
  induction entries using List.reverseRecOn with
  | nil => rfl
  | append_singleton entries entry ih =>
      have more : keys (entries ++ [entry]) = keys entries ++ [entry.1] := List.map_append
      simp only [settled_concat, keys_put, ih, more, eraseDups_concat, List.mem_eraseDups]

/-- Each key takes its last value. -/
theorem find?_settled (key : κ) (entries : EntriesBy κ α) :
    find? key (settled entries) = find? key entries.reverse := by
  induction entries using List.reverseRecOn with
  | nil => rfl
  | append_singleton entries entry ih =>
      rw [settled_concat, List.reverse_append, List.reverse_singleton, List.singleton_append,
        find?_cons]
      split
      · next same => rw [← same, find?_put_self]
      · next different => rw [find?_put_other _ _ _ _ (Ne.symm different), ih]

/-- Entries of the same keys in the same order are found where the others are. -/
theorem find?_forall₂ {related : α → β → Prop} {entries : EntriesBy κ α} {others : EntriesBy κ β}
    (each : List.Forall₂ (fun entry other => entry.1 = other.1 ∧ related entry.2 other.2)
      entries others) {key : κ} {value : α} {other : β} (found : find? key entries = some value)
    (foundOther : find? key others = some other) : related value other := by
  induction each with
  | nil => cases found
  | cons first _ ih =>
      rw [find?_cons] at found foundOther
      rw [← first.1] at foundOther
      split at found
      · next same =>
          rw [if_pos same] at foundOther
          cases found
          cases foundOther
          exact first.2
      · next different =>
          rw [if_neg different] at foundOther
          exact ih found foundOther

omit [DecidableEq κ] in
theorem keys_forall₂ {related : α → β → Prop} {entries : EntriesBy κ α} {others : EntriesBy κ β}
    (each : List.Forall₂ (fun entry other => entry.1 = other.1 ∧ related entry.2 other.2)
      entries others) : keys entries = keys others := by
  rw [keys, keys, ← List.forall₂_eq_eq_eq, List.forall₂_map_left_iff, List.forall₂_map_right_iff]
  exact each.imp fun _ _ both => both.1

/-- Entries of distinct keys are told by the order of the keys and by look-ups. -/
theorem eq_of_find? {entries others : EntriesBy κ α} (sameKeys : keys others = keys entries)
    (once : (keys entries).Nodup) (same : ∀ key, find? key others = find? key entries) :
    others = entries := by
  induction entries generalizing others with
  | nil => exact List.map_eq_nil_iff.1 sameKeys
  | cons entry rest ih =>
      obtain ⟨key, value⟩ := entry
      cases others with
      | nil => cases sameKeys
      | cons other later =>
          obtain ⟨otherKey, otherValue⟩ := other
          have sameKey : otherKey = key := (List.cons.inj sameKeys).1
          have restKeys : keys later = keys rest := (List.cons.inj sameKeys).2
          subst sameKey
          obtain ⟨fresh, restOnce⟩ := List.nodup_cons.1 once
          have here := same otherKey
          rw [find?_cons, find?_cons, if_pos rfl, if_pos rfl, Option.some_inj] at here
          rw [here, ih restKeys restOnce fun other => ?_]
          by_cases isFirst : otherKey = other
          · subst isFirst
            rw [(find?_eq_none_iff otherKey later).2 (by rwa [restKeys]),
              (find?_eq_none_iff otherKey rest).2 fresh]
          · have there := same other
            rwa [find?_cons, find?_cons, if_neg isFirst, if_neg isFirst] at there

/-- Entries of distinct keys stay as they are. -/
theorem eraseDups_keys (entries : EntriesBy κ α) (once : (keys entries).Nodup) :
    (keys entries).eraseDups = keys entries := by
  induction entries with
  | nil => rfl
  | cons entry rest ih =>
      obtain ⟨fresh, restOnce⟩ := List.nodup_cons.1 once
      have others : (keys rest).filter (fun key => !key == entry.1) = keys rest := by
        refine List.filter_eq_self.2 fun key member => ?_
        have different : key ≠ entry.1 := fun same => fresh (same ▸ member)
        simp [different]
      have front : keys (entry :: rest) = entry.1 :: keys rest := rfl
      rw [front, List.eraseDups_cons, others, ih restOnce]

end Entries

namespace Json

open Entries (keys find? settled)

/-- What a value is once the keys of its objects are told apart: each key stands at its first place
and has its last value. -/
inductive Settles : Json → Json → Prop
  | null : Settles null null
  | bool (flag : Bool) : Settles (bool flag) (bool flag)
  | number (value : Number) : Settles (number value) (number value)
  | string (text : String) : Settles (string text) (string text)
  | array {items results : List Json} (each : List.Forall₂ Settles items results) :
      Settles (array items) (array results)
  | object {entries results : Entries Json} (order : keys results = (keys entries).eraseDups)
      (values : ∀ key last value, find? key entries.reverse = some last →
        find? key results = some value → Settles last value) :
      Settles (object entries) (object results)

theorem settles_ofEntries {entries results : Entries Json}
    (each : List.Forall₂ (fun entry result => entry.1 = result.1 ∧ Settles entry.2 result.2)
      entries results) : Settles (object entries) (ofEntries results) := by
  have same : ofEntries results = object (settled results) := rfl
  rw [same]
  refine .object ?_ fun key last value isLast isValue => ?_
  · rw [Entries.keys_settled, Entries.keys_forall₂ each]
  · rw [Entries.find?_settled] at isValue
    exact Entries.find?_forall₂ (List.forall₂_reverse_iff.2 each) isLast isValue

/-- A value without repeated keys is itself. -/
theorem Settles.eq_of_distinctKeys {value result : Json} (settles : Settles value result)
    (distinct : value.DistinctKeys) : result = value := by
  induction distinct generalizing result with
  | null => cases settles; rfl
  | bool flag => cases settles; rfl
  | number value => cases settles; rfl
  | string text => cases settles; rfl
  | @array items _ ih =>
      cases settles with
      | @array _ results each =>
          have same : List.Forall₂ (· = ·) items results :=
            ((List.forall₂_and_left _ _).2 ⟨fun item member => member, each⟩).imp
              fun item result both => (ih item both.1 both.2).symm
          rw [List.forall₂_eq_eq_eq] at same
          rw [same]
  | @object entries once each ih =>
      cases settles with
      | @object _ results order values =>
          rw [Entries.eraseDups_keys entries once] at order
          rw [Entries.eq_of_find? order once fun key => ?_]
          cases found : find? key entries with
          | none =>
              rw [Entries.find?_eq_none_iff, order, ← Entries.find?_eq_none_iff]
              exact found
          | some value =>
              have isLast : find? key entries.reverse = some value := by
                rw [Entries.find?_perm key once (List.reverse_perm entries).symm, found]
              cases told : find? key results with
              | none =>
                  rw [Entries.find?_eq_none_iff, order, ← Entries.find?_eq_none_iff] at told
                  cases told.symm.trans found
              | some other =>
                  have member := Entries.mem_of_find? key value entries found
                  rw [ih _ member (values key value other isLast told)]

end Json

end PinTable
