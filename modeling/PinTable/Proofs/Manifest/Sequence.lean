import Mathlib.Data.List.Forall2
import PinTable.Manifest.Decode

set_option autoImplicit false

/- Decoding step by step. The result of a decoding does not depend on the events on the way, so it
is that of the same steps without events. A list of items is decoded if each item is, and else its
fault is that of the first item that is not. -/
namespace PinTable

section Steps

variable {ε α β : Type}

theorem bind_eq_ok_iff (first : Except ε α) (next : α → Except ε β) (result : β) :
    first >>= next = .ok result ↔ ∃ value, first = .ok value ∧ next value = .ok result := by
  cases first with
  | error reason => simp [Bind.bind, Except.bind]
  | ok value => simp [Bind.bind, Except.bind]

theorem bind_eq_error_iff (first : Except ε α) (next : α → Except ε β) (error : ε) :
    first >>= next = .error error ↔
      first = .error error ∨ ∃ value, first = .ok value ∧ next value = .error error := by
  cases first with
  | error reason => simp [Bind.bind, Except.bind]
  | ok value => simp [Bind.bind, Except.bind]

theorem pure_eq_ok_iff (value result : α) :
    (pure value : Except ε α) = .ok result ↔ value = result := by
  simp [Pure.pure, Except.pure]

theorem pure_ne_error (value : α) (error : ε) : (pure value : Except ε α) ≠ .error error := by
  simp [Pure.pure, Except.pure]

end Steps

namespace Outcome

variable {ε α β : Type}

@[simp] theorem result_ofExcept (result : Except ε α) :
    (ofExcept result : Outcome ε α).result = result := rfl

@[simp] theorem result_pure (value : α) : (pure value : Outcome ε α).result = pure value := rfl

@[simp] theorem result_bind (first : Outcome ε α) (next : α → Outcome ε β) :
    (first >>= next).result = first.result >>= fun value => (next value).result := by
  rw [bind_eq_andThen]
  cases found : first.result with
  | error reason => rw [andThen_of_error _ _ _ found]; rfl
  | ok value => rw [andThen_of_ok _ _ _ found]; rfl

end Outcome

section Items

variable {ε α β : Type}

@[simp] theorem result_forEachAt (step : Nat → α → Outcome ε β) (position : Nat) (items : List α) :
    (forEachAt step position items).result =
      forEachAt (fun position item => (step position item).result) position items := by
  induction items generalizing position with
  | nil => rfl
  | cons item rest ih =>
      simp only [forEachAt, Outcome.result_bind, Outcome.result_pure, ih]

/-- The items, each with its position, give the results. -/
def EachGives (step : Nat → α → Except ε β) (position : Nat) (items : List α)
    (results : List β) : Prop :=
  List.Forall₂ (fun entry result => step entry.2 entry.1 = .ok result) (items.zipIdx position)
    results

variable (step : Nat → α → Except ε β)

theorem forEachAt_eq_ok_iff (position : Nat) (items : List α) (results : List β) :
    forEachAt step position items = .ok results ↔ EachGives step position items results := by
  induction items generalizing position results with
  | nil => rw [forEachAt, pure_eq_ok_iff, EachGives, List.zipIdx_nil,
      List.forall₂_nil_left_iff, eq_comm]
  | cons item rest ih =>
      simp only [forEachAt, bind_eq_ok_iff, pure_eq_ok_iff, ih]
      rw [EachGives, List.zipIdx_cons, List.forall₂_cons_left_iff]
      constructor
      · rintro ⟨first, isFirst, others, areOthers, rfl⟩
        exact ⟨first, others, isFirst, areOthers, rfl⟩
      · rintro ⟨first, others, isFirst, areOthers, rfl⟩
        exact ⟨first, isFirst, others, areOthers, rfl⟩

/-- An item that fails ends the sequence; the items in front of it have not failed. -/
theorem forEachAt_eq_error_iff (position : Nat) (items : List α) (error : ε) :
    forEachAt step position items = .error error ↔
      ∃ front item back results, items = front ++ item :: back ∧
        EachGives step position front results ∧
        step (position + front.length) item = .error error := by
  induction items generalizing position with
  | nil =>
      refine iff_of_false (pure_ne_error _ _) ?_
      rintro ⟨front, item, back, _, split, _⟩
      exact absurd split (by simp)
  | cons item rest ih =>
      simp only [forEachAt, bind_eq_error_iff, pure_ne_error, and_false, exists_false, or_false, ih]
      constructor
      · rintro (failed | ⟨first, isFirst, front, other, back, results, rfl, before, failed⟩)
        · exact ⟨[], item, rest, [], rfl, .nil, failed⟩
        · refine ⟨item :: front, other, back, first :: results, rfl, .cons isFirst before, ?_⟩
          rw [List.length_cons, Nat.add_comm front.length 1, ← Nat.add_assoc]
          exact failed
      · rintro ⟨front, other, back, results, split, before, failed⟩
        cases front with
        | nil =>
            obtain ⟨rfl, rfl⟩ := List.cons.inj split
            exact Or.inl failed
        | cons first others =>
            obtain ⟨rfl, rfl⟩ := List.cons.inj split
            obtain ⟨value, values, isFirst, areOthers, rfl⟩ := List.forall₂_cons_left_iff.1 before
            rw [List.length_cons, Nat.add_comm others.length 1, ← Nat.add_assoc] at failed
            exact Or.inr ⟨value, isFirst, others, other, back, values, rfl, areOthers, failed⟩

/-- Each result is that of the item at its position. -/
theorem EachGives.located {step : Nat → α → Except ε β} {items : List α} {results : List β}
    (gives : EachGives step 0 items results) :
    List.Forall₂ (fun entry result => items[entry.2]? = some entry.1 ∧
      step entry.2 entry.1 = .ok result) items.zipIdx results := by
  apply (List.forall₂_and_left _ _).2
  exact ⟨fun entry member => List.mem_zipIdx_iff_getElem?.1 member, gives⟩

/-- A sequence gives results just if each of its items does. -/
theorem exists_eachGives_iff (position : Nat) (items : List α) (accepts : α → Prop)
    (each : ∀ item ∈ items, ∀ position, (∃ result, step position item = .ok result) ↔ accepts item) :
    (∃ results, EachGives step position items results) ↔ ∀ item ∈ items, accepts item := by
  induction items generalizing position with
  | nil => exact iff_of_true ⟨[], .nil⟩ fun _ member => absurd member List.not_mem_nil
  | cons item rest ih =>
      obtain ⟨first, others⟩ := List.forall_mem_cons.1 each
      rw [List.forall_mem_cons, ← first position, ← ih (position + 1) others]
      constructor
      · rintro ⟨results, gives⟩
        obtain ⟨result, later, isFirst, areLater, rfl⟩ := List.forall₂_cons_left_iff.1 gives
        exact ⟨⟨result, isFirst⟩, later, areLater⟩
      · rintro ⟨⟨result, isFirst⟩, later, areLater⟩
        exact ⟨result :: later, .cons isFirst areLater⟩

/-- Each result is that of its item, at some position. -/
theorem EachGives.unplaced {step : Nat → α → Except ε β} {position : Nat} {items : List α}
    {results : List β} (gives : EachGives step position items results) :
    List.Forall₂ (fun item result => ∃ position, step position item = .ok result) items results := by
  rw [← List.zipIdx_map_fst position items, List.forall₂_map_left_iff]
  exact gives.imp fun entry result given => ⟨entry.2, given⟩

/-- Items that give results at every position give results that are related one by one. -/
theorem exists_eachGives_related {γ : Type} (related : γ → β → Prop) (position : Nat)
    {items : List α} {results : List γ}
    (each : List.Forall₂ (fun item result => ∀ position, ∃ other,
      step position item = .ok other ∧ related result other) items results) :
    ∃ others, EachGives step position items others ∧ List.Forall₂ related results others := by
  induction each generalizing position with
  | nil => exact ⟨[], .nil, .nil⟩
  | cons first _ ih =>
      obtain ⟨other, given, alike⟩ := first position
      obtain ⟨others, areOthers, areAlike⟩ := ih (position + 1)
      exact ⟨other :: others, .cons given areOthers, .cons alike areAlike⟩

theorem map_eq_of_forall₂ {γ : Type} {first : α → γ} {second : β → γ} {items : List α}
    {others : List β}
    (each : List.Forall₂ (fun item other => first item = second other) items others) :
    items.map first = others.map second := by
  rw [← List.forall₂_eq_eq_eq, List.forall₂_map_left_iff, List.forall₂_map_right_iff]
  exact each

theorem forall₂_of_map_eq {γ : Type} {first : α → γ} {second : β → γ} {items : List α}
    {others : List β} (same : items.map first = others.map second) :
    List.Forall₂ (fun item other => first item = second other) items others := by
  rwa [← List.forall₂_eq_eq_eq, List.forall₂_map_left_iff, List.forall₂_map_right_iff] at same

theorem flatMap_eq_of_forall₂ {γ : Type} {first : α → List γ} {second : β → List γ}
    {items : List α} {others : List β}
    (each : List.Forall₂ (fun item other => first item = second other) items others) :
    items.flatMap first = others.flatMap second := by
  rw [List.flatMap_def, List.flatMap_def, map_eq_of_forall₂ each]

theorem exists_of_forall₂ {related : α → β → Prop} {items : List α} {others : List β}
    (each : List.Forall₂ related items others) {item : α} (member : item ∈ items) :
    ∃ other ∈ others, related item other := by
  induction each with
  | nil => cases member
  | cons first _ ih =>
      rcases List.mem_cons.1 member with rfl | later
      · exact ⟨_, List.mem_cons_self, first⟩
      · obtain ⟨other, isOther, alike⟩ := ih later
        exact ⟨other, List.mem_cons_of_mem _ isOther, alike⟩

theorem forall₂_and_right {related : α → β → Prop} {such : β → Prop} {items : List α}
    {others : List β}
    (all : List.Forall₂ (fun item other => related item other ∧ such other) items others) :
    List.Forall₂ related items others ∧ ∀ other ∈ others, such other := by
  have turned : List.Forall₂ (fun other item => such other ∧ related item other) others items :=
    (all.imp fun _ _ both => both.symm).flip
  obtain ⟨each, alike⟩ := (List.forall₂_and_left _ _).1 turned
  exact ⟨alike.flip, each⟩

end Items

end PinTable
