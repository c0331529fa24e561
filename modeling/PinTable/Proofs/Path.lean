import Mathlib.Data.List.Basic
import PinTable.Path.Basic

set_option autoImplicit false

namespace PinTable.Path

theorem segments_eq_splitOn (path : List Char) : segments path = path.splitOn '/' := by
  induction path with
  | nil => rfl
  | cons c rest ih =>
      rw [List.splitOn_cons_eq_if_modifyHead, segments, ih]
      by_cases slash : c = '/'
      · simp [slash]
      · obtain ⟨first, others, cut⟩ := List.exists_cons_of_ne_nil (List.splitOn_ne_nil '/' rest)
        simp [slash, cut]

theorem segments_ne_nil (path : List Char) : segments path ≠ [] := by
  rw [segments_eq_splitOn]
  exact List.splitOn_ne_nil '/' path

theorem join_segments (path : List Char) : join (segments path) = path := by
  rw [segments_eq_splitOn]
  exact List.intercalate_splitOn '/'

theorem segments_join (parts : List (List Char)) (filled : parts ≠ [])
    (bare : ∀ part ∈ parts, '/' ∉ part) : segments (join parts) = parts := by
  rw [segments_eq_splitOn]
  exact List.splitOn_intercalate '/' bare filled

theorem segments_join_concat (before : List (List Char)) (last : List Char)
    (bare : ∀ segment ∈ before, '/' ∉ segment) (bareLast : '/' ∉ last) :
    segments (join (before ++ [last])) = before ++ [last] := by
  apply segments_join _ (by simp)
  intro segment member
  rcases List.mem_append.1 member with front | isLast
  · exact bare segment front
  · rwa [List.mem_singleton.1 isLast]

theorem slash_not_mem_segment (path segment : List Char) (member : segment ∈ segments path) :
    '/' ∉ segment := by
  induction path generalizing segment with
  | nil => rw [List.mem_singleton.1 member]; exact List.not_mem_nil
  | cons c rest ih =>
      obtain ⟨first, others, cut⟩ := List.exists_cons_of_ne_nil (segments_ne_nil rest)
      rw [cut] at ih
      rw [segments, cut] at member
      by_cases slash : c = '/'
      · rw [if_pos slash] at member
        rcases List.mem_cons.1 member with rfl | later
        · exact List.not_mem_nil
        · exact ih segment later
      · rw [if_neg slash] at member
        rcases List.mem_cons.1 member with rfl | later
        · rw [List.mem_cons, not_or]
          exact ⟨fun same => slash same.symm, ih first List.mem_cons_self⟩
        · exact ih segment (List.mem_cons_of_mem first later)

/-- What is added to the last segment is added to the path. -/
theorem join_append_last (before : List (List Char)) (last added : List Char) :
    join (before ++ [last ++ added]) = join (before ++ [last]) ++ added := by
  induction before with
  | nil => simp [join]
  | cons first others ih =>
      have more : ∀ final : List Char, others ++ [final] ≠ [] := fun final => by simp
      have step : ∀ final : List Char,
          join (first :: others ++ [final]) = first ++ '/' :: join (others ++ [final]) := by
        intro final
        obtain ⟨second, rest, cut⟩ := List.exists_cons_of_ne_nil (more final)
        rw [List.cons_append, cut]
        simp [join]
      rw [step, step, ih, List.append_assoc, List.cons_append]

/-- The last segment names nothing: it is idle, or it leads up. -/
def EndsAtFolder (path : List Char) : Prop :=
  ∃ before last, segments path = before ++ [last] ∧ (isIdle last = true ∨ last = parent)

theorem endsAtFolder_of_unnamed (path : List Char) (unnamed : fileParts? path = none) :
    EndsAtFolder path := by
  obtain ⟨before, last, cut⟩ :=
    (segments path).eq_nil_or_concat'.resolve_left (segments_ne_nil path)
  refine ⟨before, last, cut, ?_⟩
  by_cases idle : isIdle last = true
  · exact .inl idle
  · simp only [fileParts?, cut, List.reverse_append, List.reverse_singleton,
      List.singleton_append, List.dropWhile_cons_of_neg idle] at unnamed
    by_cases leadsUp : last = parent
    · exact .inr leadsUp
    · rw [if_neg leadsUp] at unnamed
      cases unnamed

/-- The parts of a path with a name are segments of it, and the name neither stays nor leads up. -/
theorem named_of_fileParts? (path : List Char) (parts : FileParts)
    (named : fileParts? path = some parts) :
    (∀ segment ∈ parts.before, '/' ∉ segment) ∧ '/' ∉ parts.name ∧ isIdle parts.name = false := by
  unfold fileParts? at named
  cases rest : (segments path).reverse.dropWhile isIdle with
  | nil => simp only [rest] at named; cases named
  | cons name before =>
      simp only [rest] at named
      by_cases leadsUp : name = parent
      · rw [if_pos leadsUp] at named
        cases named
      · rw [if_neg leadsUp] at named
        cases named
        have kept : ∀ segment ∈ name :: before, segment ∈ segments path := by
          intro segment member
          rw [← rest] at member
          exact List.mem_reverse.1 ((List.dropWhile_suffix isIdle).mem member)
        refine ⟨fun segment member => ?_, ?_, ?_⟩
        · exact slash_not_mem_segment path segment
            (kept segment (List.mem_cons_of_mem name (List.mem_reverse.1 member)))
        · exact slash_not_mem_segment path name (kept name List.mem_cons_self)
        · have first := List.head?_dropWhile_not isIdle (segments path).reverse
          simpa [rest] using first

theorem splitName_stem (name : List Char) (filled : name ≠ []) :
    (splitName name).1 ≠ [] ∧ ∀ c ∈ (splitName name).1, c ∈ name := by
  simp only [splitName]
  split
  · exact ⟨filled, fun c member => member⟩
  · rename_i stem
    exact ⟨stem, fun c member => List.mem_of_mem_take member⟩

/-- The file that a path names has a stem, which is part of a segment. -/
theorem stem_of_fileParts? (path : List Char) (parts : FileParts)
    (named : fileParts? path = some parts) :
    (splitName parts.name).1 ≠ [] ∧ '/' ∉ (splitName parts.name).1 := by
  obtain ⟨-, bare, settled⟩ := named_of_fileParts? path parts named
  have filled : parts.name ≠ [] := by
    intro empty
    rw [empty] at settled
    cases settled
  obtain ⟨stem, within⟩ := splitName_stem parts.name filled
  exact ⟨stem, fun slash => bare (within '/' slash)⟩

/-- The new extension stands behind one stem, whatever it is, or no file is named at all. -/
theorem withExtension_cases (path : List Char) :
    (∃ folder, EndsAtFolder folder ∧ ∀ extension, withExtension path extension = folder) ∨
    ∃ before stem, (∀ segment ∈ before, '/' ∉ segment) ∧ '/' ∉ stem ∧ stem ≠ [] ∧
      ∀ extension, withExtension path extension = join (before ++ [stem ++ '.' :: extension]) := by
  cases named : fileParts? path with
  | none =>
      refine .inl ⟨path, endsAtFolder_of_unnamed path named, fun extension => ?_⟩
      simp only [withExtension, named]
  | some parts =>
      have bare := (named_of_fileParts? path parts named).1
      by_cases points : (splitName parts.name).1 = ['.'] ∧ (splitName parts.name).2.isSome ∧
          parts.after = []
      · refine .inl ⟨join (parts.before ++ [parent]), ?_, fun extension => ?_⟩
        · exact ⟨parts.before, parent, segments_join_concat _ _ bare (by decide), .inr rfl⟩
        · simp only [withExtension, named, if_pos points]
      · obtain ⟨filled, bareStem⟩ := stem_of_fileParts? path parts named
        refine .inr ⟨parts.before, (splitName parts.name).1, bare, bareStem, filled,
          fun extension => ?_⟩
        simp only [withExtension, named, if_neg points]

end PinTable.Path
