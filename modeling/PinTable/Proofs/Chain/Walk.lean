import PinTable.Chain

set_option autoImplicit false

namespace PinTable

variable {ρ α : Type}

namespace Links

@[simp] theorem ofRecords_some {β : Type} (next : β → Option Nat) (records : List β)
    (position : Nat) :
    ofRecords next records (some position) =
      records[position]?.map fun record => (position, next record) := rfl

/-- The links of records are those of the positions that they hold. -/
theorem ofRecords_id {β : Type} (next : β → Option Nat) (records : List β) :
    ofRecords id (records.map next) = ofRecords next records := by
  funext reference
  cases reference with
  | none => rfl
  | some position =>
      rw [ofRecords_some, ofRecords_some, List.getElem?_map, Option.map_map]
      rfl

/-- A record that a reference leads to stays there when records are added. -/
theorem ofRecords_append {β : Type} (next : β → Option Nat) (records more : List β)
    (reference : Option Nat) (step : Nat × Option Nat)
    (leads : ofRecords next records reference = some step) :
    ofRecords next (records ++ more) reference = some step := by
  cases reference with
  | none => cases leads
  | some position =>
      rw [ofRecords_some] at leads ⊢
      obtain ⟨record, found, same⟩ := Option.map_eq_some_iff.1 leads
      have inside : position < records.length := (List.getElem?_eq_some_iff.1 found).1
      rw [List.getElem?_append_left inside, found, Option.map_some, same]

end Links

namespace Walk

variable {links : Links ρ α} {null reference : ρ}

/-- No reference is the start of two walks. -/
theorem unique (ended : links null = none) {first second : List α}
    (one : Walk links null reference first) (other : Walk links null reference second) :
    first = second := by
  induction one generalizing second with
  | stop =>
      cases other with
      | stop => rfl
      | step leads => rw [ended] at leads; cases leads
  | step leads _ ih =>
      cases other with
      | stop => rw [ended] at leads; cases leads
      | step leads' others' =>
          rw [leads] at leads'
          cases leads'
          rw [ih others']

/-- A walk that may take enough steps is the whole walk. -/
theorem follow_eq (ended : links null = none) {items : List α}
    (walk : Walk links null reference items) (count : Nat) (enough : items.length ≤ count) :
    links.follow count reference = items := by
  induction walk generalizing count with
  | stop =>
      cases count with
      | zero => rfl
      | succ count => simp only [Links.follow, ended]
  | step leads _ ih =>
      cases count with
      | zero => exact absurd enough (Nat.not_succ_le_zero _)
      | succ count => simp only [Links.follow, leads, ih count (Nat.le_of_succ_le_succ enough)]

/-- Links that lead on from every reference as others do have their walks. -/
theorem mono {wider : Links ρ α} {items : List α} (walk : Walk links null reference items)
    (kept : ∀ start step, links start = some step → wider start = some step) :
    Walk wider null reference items := by
  induction walk with
  | stop => exact .stop
  | step leads _ ih => exact .step (kept _ _ leads) ih

/-- A walk as it is seen where the same list is written down: references have names there, and each
item on the way has an image. -/
theorem written {σ β : Type} {written : Links σ β} {items : List α}
    (walk : Walk links null reference items) (name : ρ → σ) (image : α → Option β)
    (kept : ∀ start item next, links start = some (item, next) →
      ∃ seen, image item = some seen ∧ written (name start) = some (seen, name next)) :
    ∃ seen, items.map image = seen.map some ∧ Walk written (name null) (name reference) seen := by
  induction walk with
  | stop => exact ⟨[], rfl, .stop⟩
  | step leads _ ih =>
      obtain ⟨first, isFirst, leadsOn⟩ := kept _ _ _ leads
      obtain ⟨others, areOthers, walked⟩ := ih
      refine ⟨first :: others, ?_, .step leadsOn walked⟩
      rw [List.map_cons, List.map_cons, isFirst, areOthers]

end Walk

end PinTable
