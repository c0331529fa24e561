import Mathlib.Data.List.Basic
import PinTable.Directory
import PinTable.Proofs.Path

set_option autoImplicit false

namespace PinTable.Directory

theorem nodeAt?_of_isOutermost (directory : Directory) (place : Place)
    (outermost : isOutermost place = true) : directory.nodeAt? place = some .folder := by
  simp only [nodeAt?, outermost, ↓reduceIte]

theorem nodeAt?_put_self (directory : Directory) (place : Place) (node : Node)
    (free : directory.nodeAt? place ≠ some .folder) :
    (directory.put place node).nodeAt? place = some node := by
  have inner : isOutermost place = false := by
    rw [Bool.eq_false_iff]
    exact fun outermost => free (directory.nodeAt?_of_isOutermost place outermost)
  simp [nodeAt?, put, inner]

theorem nodeAt?_put_other (directory : Directory) (place other : Place) (node : Node)
    (apart : other ≠ place) :
    (directory.put place node).nodeAt? other = directory.nodeAt? other := by
  have kept : ∀ entry : Place × Node,
      ((entry.1 != place) = true ∧ (entry.1 == other) = true) ↔ (entry.1 == other) = true := by
    intro entry
    rw [bne_iff_ne, beq_iff_eq]
    exact ⟨And.right, fun found => ⟨fun same => apart (found.symm.trans same), found⟩⟩
  unfold nodeAt? put
  rw [List.find?_cons_of_neg (by simpa using apart.symm), List.find?_filter]
  simp only [kept, Bool.decide_eq_true]

/-- A file in the place of a file, or of nothing, leaves the folders as they are. -/
theorem folder_put_iff (directory : Directory) (place other : Place) (contents : ByteArray)
    (free : directory.nodeAt? place ≠ some .folder) :
    (directory.put place (.file contents)).nodeAt? other = some .folder ↔
      directory.nodeAt? other = some .folder := by
  by_cases same : other = place
  · subst same
    rw [nodeAt?_put_self directory other _ free]
    exact iff_of_false (fun claimed => by cases claimed) free
  · rw [nodeAt?_put_other directory place other _ same]

theorem follow?_cons_eq_some_iff (directory : Directory) (place reached : Place)
    (segment : List Char) (rest : List (List Char)) :
    directory.follow? place (segment :: rest) = some reached ↔
      directory.nodeAt? place = some .folder ∧
        directory.follow? (enter place segment) rest = some reached := by
  rw [follow?]
  split
  · rename_i folder
    exact ⟨fun followed => ⟨folder, followed⟩, fun both => both.2⟩
  · rename_i other
    exact iff_of_false (fun claimed => by cases claimed) fun both => other both.1

theorem follow?_append_eq_some_iff (directory : Directory) (place reached : Place)
    (before rest : List (List Char)) :
    directory.follow? place (before ++ rest) = some reached ↔
      ∃ middle, directory.follow? place before = some middle ∧
        directory.follow? middle rest = some reached := by
  induction before generalizing place with
  | nil => simp [follow?]
  | cons segment others ih =>
      simp only [List.cons_append, follow?_cons_eq_some_iff, ih, and_assoc, exists_and_left]

theorem follow?_concat_eq_some_iff (directory : Directory) (place reached : Place)
    (before : List (List Char)) (last : List Char) :
    directory.follow? place (before ++ [last]) = some reached ↔
      ∃ middle, directory.follow? place before = some middle ∧
        directory.nodeAt? middle = some .folder ∧ enter middle last = reached := by
  have alone : ∀ middle, directory.follow? middle [last] = some reached ↔
      directory.nodeAt? middle = some .folder ∧ enter middle last = reached := by
    intro middle
    rw [follow?_cons_eq_some_iff, follow?, Option.some.injEq]
  simp only [follow?_append_eq_some_iff, alone]

theorem follow?_congr (first second : Directory)
    (alike : ∀ place, first.nodeAt? place = some .folder ↔ second.nodeAt? place = some .folder)
    (place : Place) (parts : List (List Char)) :
    first.follow? place parts = second.follow? place parts := by
  induction parts generalizing place with
  | nil => rfl
  | cons segment rest ih =>
      apply Option.ext
      intro reached
      rw [follow?_cons_eq_some_iff, follow?_cons_eq_some_iff, alike, ih]

/-- Every place on the way is a folder. -/
def Grounded (directory : Directory) (place : Place) : Prop :=
  ∀ outer, outer <+: place → outer ≠ place → directory.nodeAt? outer = some .folder

theorem grounded_concat (directory : Directory) (place : Place) (name : String)
    (grounded : Grounded directory place) (folder : directory.nodeAt? place = some .folder) :
    Grounded directory (place ++ [name]) := by
  intro outer front apart
  rcases List.prefix_concat_iff.1 front with whole | front
  · exact absurd whole apart
  · by_cases same : outer = place
    · rw [same]; exact folder
    · exact grounded outer front same

theorem above_of_grounded (directory : Directory) (place : Place)
    (grounded : Grounded directory place) (folder : directory.nodeAt? place = some .folder) :
    directory.nodeAt? (above place) = some .folder ∧ Grounded directory (above place) := by
  unfold above
  by_cases atTop : (place == [top]) = true
  · rw [if_pos atTop]
    exact ⟨folder, grounded⟩
  · rw [if_neg atTop]
    by_cases allUp : place.all (· == up) = true
    · rw [if_pos allUp]
      refine ⟨nodeAt?_of_isOutermost directory _ ?_, grounded_concat directory place up grounded folder⟩
      simp [isOutermost, allUp]
    · rw [if_neg allUp]
      have inner : place ≠ [] := fun empty => allUp (by rw [empty]; rfl)
      have shorter : place.dropLast.length < place.length := by
        rw [List.length_dropLast]
        exact Nat.sub_lt (List.length_pos_iff.2 inner) Nat.one_pos
      have outward : ∀ outer, outer <+: place.dropLast →
          directory.nodeAt? outer = some .folder := by
        intro outer front
        refine grounded outer (front.trans (List.dropLast_prefix place)) fun same => ?_
        have least := front.length_le
        rw [same] at least
        omega
      exact ⟨outward _ (List.prefix_refl _), fun outer front _ => outward outer front⟩

theorem grounded_enter (directory : Directory) (place : Place) (segment : List Char)
    (grounded : Grounded directory place) (folder : directory.nodeAt? place = some .folder) :
    Grounded directory (enter place segment) := by
  unfold enter
  split
  · exact grounded
  · split
    · exact (above_of_grounded directory place grounded folder).2
    · exact grounded_concat directory place _ grounded folder

theorem grounded_follow? (directory : Directory) (place reached : Place)
    (parts : List (List Char)) (grounded : Grounded directory place)
    (followed : directory.follow? place parts = some reached) : Grounded directory reached := by
  induction parts generalizing place with
  | nil =>
      cases followed
      exact grounded
  | cons segment rest ih =>
      obtain ⟨folder, further⟩ := (follow?_cons_eq_some_iff ..).1 followed
      exact ih _ (grounded_enter directory place segment grounded folder) further

/-- The place that the segments of a path start from, and those that are followed from there. -/
def start : List (List Char) → Place × List (List Char)
  | [] :: rest => ([top], rest)
  | parts => ([], parts)

theorem locate?_eq_some_iff (directory : Directory) (path : String) (place : Place) :
    directory.locate? path = some place ↔
      (path.toList ≠ [] ∧ '\x00' ∉ path.toList) ∧
        directory.follow? (start (Path.segments path.toList)).1
          (start (Path.segments path.toList)).2 = some place := by
  unfold locate?
  by_cases refused : path.toList = [] ∨ '\x00' ∈ path.toList
  · rw [if_pos refused]
    exact iff_of_false (fun claimed => by cases claimed) fun both =>
      refused.elim both.1.1 both.1.2
  · rw [if_neg refused]
    rw [not_or] at refused
    cases cut : Path.segments path.toList with
    | nil => simp only [start, refused, ne_eq, not_false_eq_true, and_self, true_and]
    | cons first rest =>
        cases first <;> simp only [start, refused, ne_eq, not_false_eq_true, and_self, true_and]

theorem grounded_start (directory : Directory) (parts : List (List Char)) :
    Grounded directory (start parts).1 := by
  unfold start
  split
  · intro outer front apart
    have first : outer <+: [] ++ ["/"] := front
    rcases List.prefix_concat_iff.1 first with whole | nothing
    · exact absurd whole apart
    · rw [List.prefix_nil.1 nothing]; rfl
  · intro outer front apart
    exact absurd (List.prefix_nil.1 front) apart

theorem start_concat (before : List (List Char)) (last : List Char)
    (more : before ≠ [] ∨ last ≠ []) :
    start (before ++ [last]) = ((start before).1, (start before).2 ++ [last]) := by
  cases before with
  | nil =>
      cases last with
      | nil => exact absurd rfl (more.resolve_left fun filled => filled rfl)
      | cons c rest => rfl
  | cons first others =>
      cases first with
      | nil => rfl
      | cons c rest => rfl

theorem locate?_congr (first second : Directory)
    (alike : ∀ place, first.nodeAt? place = some .folder ↔ second.nodeAt? place = some .folder)
    (path : String) : first.locate? path = second.locate? path := by
  apply Option.ext
  intro place
  rw [locate?_eq_some_iff, locate?_eq_some_iff, follow?_congr first second alike]

/-- A path that names no file leads to a folder, or nowhere. -/
theorem folder_of_endsAtFolder (directory : Directory) (path : String) (place : Place)
    (ends : Path.EndsAtFolder path.toList) (leads : directory.locate? path = some place) :
    directory.nodeAt? place = some .folder := by
  obtain ⟨before, last, cut, stays⟩ := ends
  obtain ⟨⟨filled, -⟩, followed⟩ := (locate?_eq_some_iff ..).1 leads
  have more : before ≠ [] ∨ last ≠ [] := by
    by_contra neither
    rw [not_or, not_not, not_not] at neither
    rw [neither.1, neither.2] at cut
    apply filled
    rw [← Path.join_segments path.toList, cut]
    rfl
  rw [cut, start_concat before last more] at followed
  obtain ⟨middle, reached, folder, rfl⟩ := (follow?_concat_eq_some_iff ..).1 followed
  have grounded := grounded_follow? directory _ _ _ (grounded_start directory before) reached
  unfold enter
  rcases stays with idle | leadsUp
  · rw [if_pos idle]
    exact folder
  · have settled : ¬ Path.isIdle last = true := by rw [leadsUp]; decide
    rw [if_neg settled, if_pos leadsUp]
    exact (above_of_grounded directory middle grounded folder).1

/-- A path to a name in a folder leads to that name if the segments before it lead to a folder. -/
theorem locate?_of_name (directory : Directory) (path : String) (place : Place)
    (before : List (List Char)) (name : List Char)
    (cut : Path.segments path.toList = before ++ [name]) (long : 2 < name.length) :
    directory.locate? path = some place ↔
      '\x00' ∉ path.toList ∧
        ∃ folder, directory.follow? (start before).1 (start before).2 = some folder ∧
          directory.nodeAt? folder = some .folder ∧ folder ++ [String.ofList name] = place := by
  have filledName : name ≠ [] := by
    intro empty
    rw [empty] at long
    exact absurd long (by decide)
  have settled : Path.isIdle name = false ∧ name ≠ Path.parent := by
    refine ⟨?_, fun leadsUp => absurd long (by rw [leadsUp]; decide)⟩
    rw [Path.isIdle, Bool.or_eq_false_iff, decide_eq_false_iff_not, decide_eq_false_iff_not]
    exact ⟨filledName, fun point => absurd long (by rw [point]; decide)⟩
  have filled : path.toList ≠ [] := by
    intro empty
    rw [empty] at cut
    have last := congrArg List.getLast? cut
    rw [List.getLast?_concat] at last
    exact filledName (Option.some.inj last).symm
  have entered : ∀ folder, enter folder name = folder ++ [String.ofList name] := by
    intro folder
    rw [enter, settled.1, if_neg Bool.false_ne_true, if_neg settled.2]
  rw [locate?_eq_some_iff, cut, start_concat before name (.inr filledName)]
  simp only [filled, ne_eq, not_false_eq_true, true_and, follow?_concat_eq_some_iff, entered]

theorem locate?_put (directory : Directory) (place : Place) (contents : ByteArray)
    (free : directory.nodeAt? place ≠ some .folder) (path : String) :
    (directory.put place (.file contents)).locate? path = directory.locate? path :=
  locate?_congr _ _ (fun other => folder_put_iff directory place other contents free) path

theorem write?_eq_some_iff (directory after : Directory) (path : String) (contents : ByteArray) :
    directory.write? path contents = some after ↔
      ∃ place, directory.locate? path = some place ∧
        directory.nodeAt? place ≠ some .folder ∧ after = directory.put place (.file contents) := by
  unfold write?
  cases directory.locate? path with
  | none => simp
  | some place =>
      cases node : directory.nodeAt? place with
      | none => simp [node, eq_comm]
      | some held => cases held <;> simp [node, eq_comm]

theorem write?_eq_none_iff (directory : Directory) (path : String) (contents : ByteArray) :
    directory.write? path contents = none ↔
      ∀ place, directory.locate? path = some place → directory.nodeAt? place = some .folder := by
  unfold write?
  cases directory.locate? path with
  | none => simp
  | some place =>
      cases node : directory.nodeAt? place with
      | none => simp [node]
      | some held => cases held <;> simp [node]

/-- What stands where after one file is written. -/
structure Written (directory after : Directory) (path : String) (contents : ByteArray) : Prop where
  holds : after.read path = .file contents
  /-- Every path leads where it led before. -/
  ways : ∀ other, after.locate? other = directory.locate? other
  others : ∀ place, directory.locate? path ≠ some place →
    after.nodeAt? place = directory.nodeAt? place

theorem written_of_write? (directory after : Directory) (path : String) (contents : ByteArray)
    (written : directory.write? path contents = some after) :
    Written directory after path contents := by
  obtain ⟨place, leads, free, rfl⟩ := (write?_eq_some_iff ..).1 written
  refine ⟨?_, locate?_put directory place contents free, fun other elsewhere => ?_⟩
  · simp only [read, locate?_put directory place contents free, leads, Option.bind_some,
      nodeAt?_put_self directory place _ free]
  · exact nodeAt?_put_other directory place other _ fun same => elsewhere (by rw [leads, same])

theorem Written.read_other {directory after : Directory} {path : String} {contents : ByteArray}
    (written : Written directory after path contents) (other : String) (place : Place)
    (leads : directory.locate? other = some place)
    (elsewhere : directory.locate? path ≠ some place) :
    after.read other = directory.read other := by
  simp only [read, written.ways, leads, Option.bind_some, written.others place elsewhere]

/-- Only a folder keeps a file from being written where a path leads. -/
theorem write?_eq_none_iff_folder (directory : Directory) (path : String) (place : Place)
    (contents : ByteArray) (leads : directory.locate? path = some place) :
    directory.write? path contents = none ↔ directory.read path = .folder := by
  rw [write?_eq_none_iff]
  simp only [read, leads, Option.bind_some, Option.some.injEq, forall_eq']
  cases node : directory.nodeAt? place with
  | none => simp
  | some held => cases held <;> simp

end PinTable.Directory
