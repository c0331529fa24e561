import PinTable.Proofs.Reading.Words

set_option autoImplicit false

namespace PinTable.Listing

open Reading

theorem head?_append_of_head? (front rest : String) (c : Char)
    (starts : front.toList.head? = some c) : (front ++ rest).toList.head? = some c := by
  rw [String.toList_append, List.head?_append, starts, Option.some_or]

theorem sectionComment_unbroken (title : String) (unbroken : Unbroken title) :
    ∀ line ∈ sectionComment title, Unbroken line := by
  simp only [sectionComment, List.forall_mem_cons, unbroken_append]
  exact ⟨by decide, ⟨⟨by decide, unbroken⟩, by decide⟩, by decide⟩

theorem sectionComment_start (title : String) (c : Char) (other : c ≠ '/') :
    ∀ line ∈ sectionComment title, line.toList.head? ≠ some c := by
  simp only [sectionComment, List.forall_mem_cons, String.toList_append]
  exact ⟨by simp, by simpa using other.symm, by simp⟩

/-- A reader that gives back what was written of each item gives all of it back. -/
theorem filterMap_written {α β γ : Type} (write : α → β) (read : β → Option γ) (image : α → γ)
    (items : List α) (each : ∀ item ∈ items, read (write item) = some (image item)) :
    (items.map write).filterMap read = items.map image := by
  rw [List.filterMap_map, ← List.filterMap_eq_map]
  exact List.filterMap_congr each

/-- What is read off each item does not tell the last one. -/
theorem map_mapLast {α β γ : Type} (f : Bool → α → β) (read : β → γ) (image : α → γ)
    (items : List α) (each : ∀ last, ∀ item ∈ items, read (f last item) = image item) :
    (mapLast f items).map read = items.map image := by
  fun_induction mapLast f items with
  | case1 => rfl
  | case2 item => exact congrArg (fun first => [first]) (each true item (List.mem_cons_self ..))
  | case3 item next rest ih =>
      rw [List.map_cons, List.map_cons, each false item (List.mem_cons_self ..),
        ih fun last other member => each last other (List.mem_cons_of_mem _ member)]

theorem forall_mem_mapLast {α β : Type} (f : Bool → α → β) (holds : β → Prop) (items : List α)
    (each : ∀ last, ∀ item ∈ items, holds (f last item)) :
    ∀ result ∈ mapLast f items, holds result := by
  fun_induction mapLast f items with
  | case1 => exact fun _ member => absurd member List.not_mem_nil
  | case2 item => exact List.forall_mem_singleton.2 (each true item (List.mem_cons_self ..))
  | case3 item next rest ih =>
      exact List.forall_mem_cons.2 ⟨each false item (List.mem_cons_self ..),
        ih fun last other member => each last other (List.mem_cons_of_mem _ member)⟩

/-- Every item is written, in one of two ways. -/
theorem exists_mem_mapLast {α β : Type} (f : Bool → α → β) {items : List α} {item : α}
    (member : item ∈ items) : ∃ last, f last item ∈ mapLast f items := by
  fun_induction mapLast f items with
  | case1 => cases member
  | case2 only =>
      rw [List.mem_singleton.1 member]
      exact ⟨true, List.mem_cons_self⟩
  | case3 first next rest ih =>
      rcases List.mem_cons.1 member with rfl | later
      · exact ⟨false, List.mem_cons_self⟩
      · obtain ⟨last, there⟩ := ih later
        exact ⟨last, List.mem_cons_of_mem _ there⟩

/-- Items that are written with the last one told are read with the last one told. -/
theorem mapM_mapLast {α β γ : Type} (f : Bool → α → β) (read : β → Option γ)
    (image : Bool → α → γ) (items : List α)
    (each : ∀ last, ∀ item ∈ items, read (f last item) = some (image last item)) :
    (mapLast f items).mapM read = some (mapLast image items) := by
  fun_induction mapLast f items with
  | case1 => rfl
  | case2 item =>
      rw [List.mapM_cons, each true item (List.mem_cons_self ..)]
      rfl
  | case3 item next rest ih =>
      rw [List.mapM_cons, each false item (List.mem_cons_self ..),
        ih fun last other member => each last other (List.mem_cons_of_mem _ member)]
      rfl

theorem mapM_map {α β γ : Type} (f : α → β) (read : β → Option γ) (image : α → γ)
    (items : List α) (each : ∀ item ∈ items, read (f item) = some (image item)) :
    (items.map f).mapM read = some (items.map image) := by
  induction items with
  | nil => rfl
  | cons item rest ih =>
      obtain ⟨first, others⟩ := List.forall_mem_cons.1 each
      rw [List.map_cons, List.mapM_cons, first, ih others]
      rfl

/-- Braces and empty lines aside, an aggregate is its parts. -/
theorem filterMap_aggregate {α : Type} (read : String → Option α) (parts : List (List String))
    (closing : String) (opened : read "\x7b" = none) (between : read "" = none)
    (closed : read closing = none) (both : read ("\x7b" ++ closing) = none) :
    (aggregate parts closing).filterMap read = parts.flatMap (List.filterMap read) := by
  have separated : ∀ parts : List (List String),
      (List.intercalate [""] parts).filterMap read = parts.flatMap (List.filterMap read) := by
    intro parts
    induction parts with
    | nil => rfl
    | cons part rest ih =>
        cases rest with
        | nil => simp
        | cons next others => simp [List.intercalate_cons_cons, between, ih]
  unfold aggregate
  split
  · simp [both]
  · rw [List.filterMap_append, List.filterMap_append, separated, List.filterMap_cons_none opened,
      List.filterMap_cons_none closed, List.filterMap_nil, List.nil_append, List.append_nil]

/-- What holds of the lines of some parts and of the lines between them. -/
theorem forall_mem_intercalate (holds : String → Prop) (between : holds "")
    (parts : List (List String)) (each : ∀ part ∈ parts, ∀ line ∈ part, holds line) :
    ∀ line ∈ List.intercalate [""] parts, holds line := by
  induction parts with
  | nil => exact fun _ member => absurd member List.not_mem_nil
  | cons part rest ih =>
      have first := each part (List.mem_cons_self ..)
      have others := ih fun other member => each other (List.mem_cons_of_mem _ member)
      cases rest with
      | nil => simpa using first
      | cons next more =>
          rw [List.intercalate_cons_cons]
          simp only [List.forall_mem_append]
          exact ⟨⟨first, List.forall_mem_singleton.2 between⟩, others⟩

theorem mem_intercalate_of_mem {parts : List (List String)} {part : List String}
    (isPart : part ∈ parts) {line : String} (isLine : line ∈ part) :
    line ∈ List.intercalate [""] parts := by
  induction parts with
  | nil => cases isPart
  | cons first rest ih =>
      cases rest with
      | nil =>
          rw [List.mem_singleton.1 isPart] at isLine
          simpa using isLine
      | cons next more =>
          rw [List.intercalate_cons_cons]
          rcases List.mem_cons.1 isPart with rfl | later
          · exact List.mem_append_left _ (List.mem_append_left _ isLine)
          · exact List.mem_append_right _ (ih later)

/-- An aggregate holds the lines of its parts. -/
theorem mem_aggregate_of_mem {parts : List (List String)} {part : List String}
    (isPart : part ∈ parts) (closing : String) {line : String} (isLine : line ∈ part) :
    line ∈ aggregate parts closing := by
  unfold aggregate
  split
  · cases isPart
  · exact List.mem_append_left _ (List.mem_append_right _ (mem_intercalate_of_mem isPart isLine))

theorem forall_mem_aggregate (holds : String → Prop) (parts : List (List String))
    (closing : String) (opened : holds "\x7b") (between : holds "") (closed : holds closing)
    (both : holds ("\x7b" ++ closing)) (each : ∀ part ∈ parts, ∀ line ∈ part, holds line) :
    ∀ line ∈ aggregate parts closing, holds line := by
  unfold aggregate
  split
  · exact List.forall_mem_singleton.2 both
  · simp only [List.forall_mem_append]
    exact ⟨⟨List.forall_mem_singleton.2 opened, forall_mem_intercalate holds between parts each⟩,
      List.forall_mem_singleton.2 closed⟩

end PinTable.Listing
