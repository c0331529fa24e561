import PinTable.Path.Target
import PinTable.Proofs.Path
import PinTable.Proofs.Reading.Words

set_option autoImplicit false

namespace PinTable

namespace Path

/-- A text that can be the extension of a file name. -/
structure IsExtension (extension : List Char) : Prop where
  filled : extension ≠ []
  plain : '.' ∉ extension
  bare : '/' ∉ extension

theorem isExtension_c : IsExtension ['c'] := ⟨by decide, by decide, by decide⟩

theorem isExtension_h : IsExtension ['h'] := ⟨by decide, by decide, by decide⟩

/-- A name is split at its last point, unless this is its first character. -/
theorem splitName_point (stem extension : List Char) (plain : '.' ∉ extension) :
    splitName (stem ++ '.' :: extension) =
      if stem = [] then (stem ++ '.' :: extension, none) else (stem, some extension) := by
  have backward : (stem ++ '.' :: extension).reverse =
      extension.reverse ++ '.' :: stem.reverse := by simp
  have last : (stem ++ '.' :: extension).reverse.takeWhile (· ≠ '.') = extension.reverse := by
    rw [backward, List.takeWhile_append_of_pos, List.takeWhile_cons_of_neg (by decide),
      List.append_nil]
    intro c member
    refine decide_eq_true ?_
    rintro rfl
    exact plain (List.mem_reverse.1 member)
  have length : (stem ++ '.' :: extension).length - extension.length - 1 = stem.length := by
    rw [List.length_append, List.length_cons]
    omega
  simp only [splitName, last, List.reverse_reverse, length, List.take_left]

/-- A stem that is not the whole name has an extension behind it. -/
theorem isSome_of_stem_ne (name : List Char) (part : (splitName name).1 ≠ name) :
    (splitName name).2.isSome := by
  simp only [splitName] at part ⊢
  split at part
  · exact absurd rfl part
  · next filled =>
      rw [if_neg filled]
      rfl

variable {path : List Char} {parts : FileParts} {extension : List Char}

theorem fileParts?_join (before : List (List Char)) (name : List Char)
    (bare : ∀ segment ∈ before, '/' ∉ segment) (bareName : '/' ∉ name)
    (settled : isIdle name = false) (stays : name ≠ parent) :
    fileParts? (join (before ++ [name])) = some ⟨before, name, []⟩ := by
  have idle : ¬ isIdle name = true := by rw [settled]; decide
  simp only [fileParts?, segments_join_concat _ _ bare bareName, List.reverse_append,
    List.reverse_singleton, List.singleton_append, List.dropWhile_cons_of_neg idle,
    List.takeWhile_cons_of_neg idle, stays, if_false, List.reverse_reverse, List.reverse_nil]

/-- A name that ends in an extension names a file. -/
theorem names_file (stem : List Char) (isExtension : IsExtension extension) :
    isIdle (stem ++ '.' :: extension) = false ∧ stem ++ '.' :: extension ≠ parent := by
  obtain ⟨filled, plain, -⟩ := isExtension
  cases stem with
  | nil =>
      refine ⟨by simp [isIdle, filled], ?_⟩
      intro same
      have point : extension = ['.'] := List.tail_eq_of_cons_eq same
      exact plain (by rw [point]; decide)
  | cons c rest => simp [isIdle, parent, List.append_eq_singleton_iff, filled]

/-- Without its extension the name leads up: its stem is a single point, and nothing follows it. -/
def LeadsUp (parts : FileParts) : Prop := (splitName parts.name).1 = ['.'] ∧ parts.after = []

theorem withExtension_eq (named : fileParts? path = some parts) (stays : ¬ LeadsUp parts)
    (extension : List Char) :
    withExtension path extension =
      join (parts.before ++ [(splitName parts.name).1 ++ '.' :: extension]) := by
  have apart : ¬ ((splitName parts.name).1 = ['.'] ∧ (splitName parts.name).2.isSome ∧
      parts.after = []) := fun ⟨point, _, last⟩ => stays ⟨point, last⟩
  simp only [withExtension, named, if_neg apart]

theorem withExtension_of_leadsUp (named : fileParts? path = some parts) (leadsUp : LeadsUp parts)
    (extension : List Char) : withExtension path extension = join (parts.before ++ [parent]) := by
  obtain ⟨point, last⟩ := leadsUp
  have part : (splitName parts.name).1 ≠ parts.name := by
    intro whole
    have settled := (named_of_fileParts? path parts named).2.2
    rw [← whole, point] at settled
    cases settled
  simp only [withExtension, named, point, isSome_of_stem_ne _ part, last, and_self, if_true]

/-- A path that leads up at its end names no file. -/
theorem fileParts?_parent (before : List (List Char)) (bare : ∀ segment ∈ before, '/' ∉ segment) :
    fileParts? (join (before ++ [parent])) = none := by
  have bareParent : '/' ∉ parent := by decide
  have idle : ¬ isIdle parent = true := by decide
  simp only [fileParts?, segments_join_concat _ _ bare bareParent, List.reverse_append,
    List.reverse_singleton, List.singleton_append, List.dropWhile_cons_of_neg idle, if_true]

/-- The file with another extension is in the same place, and only its name ends in another way. -/
theorem fileParts?_withExtension (named : fileParts? path = some parts)
    (stays : ¬ LeadsUp parts) (isExtension : IsExtension extension) :
    fileParts? (withExtension path extension) =
      some ⟨parts.before, (splitName parts.name).1 ++ '.' :: extension, []⟩ := by
  obtain ⟨bare, -, -⟩ := named_of_fileParts? path parts named
  obtain ⟨settled, isFile⟩ := names_file (splitName parts.name).1 isExtension
  have bareName : '/' ∉ (splitName parts.name).1 ++ '.' :: extension := by
    rw [List.mem_append, List.mem_cons]
    rintro (inStem | point | inExtension)
    · exact (stem_of_fileParts? path parts named).2 inStem
    · cases point
    · exact isExtension.bare inExtension
  rw [withExtension_eq named stays, fileParts?_join _ _ bare bareName settled isFile]

theorem splitName_withExtension (named : fileParts? path = some parts)
    (isExtension : IsExtension extension) :
    splitName ((splitName parts.name).1 ++ '.' :: extension) =
      ((splitName parts.name).1, some extension) := by
  rw [splitName_point _ _ isExtension.plain, if_neg (stem_of_fileParts? path parts named).1]

/-- The folder that the file of a path is in, with no idle segment at its end. -/
def folder? (path : List Char) : Option (List Char) :=
  (fileParts? path).map fun parts =>
    match parts.before with
    | [] => []
    | first :: rest =>
        let kept := first :: (rest.reverse.dropWhile isIdle).reverse
        if kept = [[]] then ['/'] else join kept

/-- Another path of a file in the same folder with the same stem. -/
structure Neighbour (path other : List Char) : Prop where
  folder : folder? other = folder? path
  stem : fileStem? other = fileStem? path

theorem neighbour_withExtension (named : fileParts? path = some parts)
    (stays : ¬ LeadsUp parts) (isExtension : IsExtension extension) :
    Neighbour path (withExtension path extension) := by
  have renamed := fileParts?_withExtension named stays isExtension
  constructor
  case folder => simp only [folder?, renamed, named, Option.map_some]
  case stem =>
    simp only [fileStem?, renamed, named, Option.map_some,
      splitName_withExtension named isExtension]

/-- A second change of the extension undoes the first, unless the stem is a single point. -/
theorem withExtension_withExtension (named : fileParts? path = some parts)
    (proper : (splitName parts.name).1 ≠ ['.']) (isExtension : IsExtension extension)
    (other : List Char) :
    withExtension (withExtension path extension) other = withExtension path other := by
  have stays : ¬ LeadsUp parts := fun leadsUp => proper leadsUp.1
  have renamed := fileParts?_withExtension named stays isExtension
  have split := splitName_withExtension named isExtension
  have alsoStays : ¬ LeadsUp ⟨parts.before, (splitName parts.name).1 ++ '.' :: extension, []⟩ := by
    rw [LeadsUp, split]
    exact fun leadsUp => proper leadsUp.1
  rw [withExtension_eq renamed alsoStays, split, withExtension_eq named stays]

/-- If the stem is a single point, a second change of the extension leads up. -/
theorem withExtension_withExtension_of_point (named : fileParts? path = some parts)
    (point : (splitName parts.name).1 = ['.']) (isExtension : IsExtension extension)
    (other : List Char) :
    fileParts? (withExtension (withExtension path extension) other) = none := by
  have up := fileParts?_parent parts.before (named_of_fileParts? path parts named).1
  by_cases last : parts.after = []
  · rw [withExtension_of_leadsUp named ⟨point, last⟩]
    rwa [withExtension, up]
  · have stays : ¬ LeadsUp parts := fun leadsUp => last leadsUp.2
    have renamed := fileParts?_withExtension named stays isExtension
    have leadsUp : LeadsUp ⟨parts.before, (splitName parts.name).1 ++ '.' :: extension, []⟩ := by
      rw [LeadsUp, splitName_withExtension named isExtension]
      exact ⟨point, rfl⟩
    rwa [withExtension_of_leadsUp renamed leadsUp]

end Path

namespace TargetPaths

open PinTable.Path

variable {path : String}

/-- The guard is one for C: capital letters, digits and underscores between its two ends. -/
def IsGuard (guard : String) : Prop :=
  ∃ middle : String, guard = "IOC_" ++ middle ++ "_INCLUDED" ∧
    ∀ c ∈ middle.toList, c.isUpper = true ∨ c.isDigit = true ∨ c = '_'

theorem guardChar_cases (c : Char) :
    (guardChar c).isUpper = true ∨ (guardChar c).isDigit = true ∨ guardChar c = '_' := by
  have all : ∀ n < 128, (Char.ofNat n).isAlphanum = true →
      (Char.ofNat n).toUpper.isUpper = true ∨ (Char.ofNat n).toUpper.isDigit = true := by
    decide
  unfold guardChar
  split
  · next plain =>
      have small : c.toNat < 128 :=
        Reading.toNat_lt_of_isIdentifierChar c (by simp [Reading.isIdentifierChar, plain])
      have here := all c.toNat small
      rw [Char.ofNat_toNat] at here
      exact (here plain).imp_right .inl
  · exact .inr (.inr rfl)

theorem isGuard_guard (paths : TargetPaths) : IsGuard paths.guard := by
  refine ⟨_, rfl, fun c member => ?_⟩
  rw [String.toList_ofList] at member
  obtain ⟨original, -, rfl⟩ := List.mem_map.1 member
  exact guardChar_cases original

/-- A path of a file has two different C files beside it, with its folder and its stem. -/
structure Pair (path : String) : Prop where
  ends : ∃ front, beside path = ⟨front ++ ".c", front ++ ".h"⟩
  different : (beside path).source ≠ (beside path).header
  source : Neighbour path.toList (beside path).source.toList
  header : Neighbour path.toList (beside path).header.toList

/-- The paths beside a path are beside each of themselves. -/
structure Stays (path : String) : Prop where
  source : beside (beside path).source = beside path
  header : beside (beside path).header = beside path
  sourceGuard : (beside (beside path).source).guard = (beside path).guard
  headerGuard : (beside (beside path).header).guard = (beside path).guard

/-- The C files stay where they are, and stand beside the file if there is one. -/
structure Settled (path : String) : Prop where
  stays : Stays path
  named : (fileParts? path.toList).isSome → Pair path
  unnamed : fileParts? path.toList = none → beside path = ⟨path, path⟩

theorem beside_of_unnamed (unnamed : fileParts? path.toList = none) :
    beside path = ⟨path, path⟩ := by
  simp only [beside, withExtension, unnamed, String.ofList_toList]

theorem stays_of_unnamed (unnamed : fileParts? path.toList = none) : Stays path := by
  have same := beside_of_unnamed unnamed
  constructor <;> simp only [same]

/-- The file with one of both extensions has the same C files beside it. -/
theorem beside_withExtension {parts : FileParts} {extension : List Char}
    (named : fileParts? path.toList = some parts) (proper : (splitName parts.name).1 ≠ ['.'])
    (isExtension : IsExtension extension) :
    beside (String.ofList (withExtension path.toList extension)) = beside path := by
  simp only [beside, String.toList_ofList, withExtension_withExtension named proper isExtension]

theorem stays_of_named {parts : FileParts} (named : fileParts? path.toList = some parts)
    (proper : (splitName parts.name).1 ≠ ['.']) : Stays path := by
  have source : beside (beside path).source = beside path :=
    beside_withExtension named proper isExtension_c
  have header : beside (beside path).header = beside path :=
    beside_withExtension named proper isExtension_h
  exact ⟨source, header, congrArg guard source, congrArg guard header⟩

theorem pair_of_named {parts : FileParts} (named : fileParts? path.toList = some parts)
    (proper : (splitName parts.name).1 ≠ ['.']) : Pair path := by
  have stays : ¬ LeadsUp parts := fun leadsUp => proper leadsUp.1
  have ends : beside path =
      ⟨String.ofList (join (parts.before ++ [(splitName parts.name).1])) ++ ".c",
        String.ofList (join (parts.before ++ [(splitName parts.name).1])) ++ ".h"⟩ := by
    simp only [beside, withExtension_eq named stays, join_append_last, String.ofList_append]
  constructor
  case ends => exact ⟨_, ends⟩
  case different =>
    rw [ends]
    intro same
    exact absurd ((String.append_right_inj _).1 same) (by decide)
  case source =>
    rw [beside, String.toList_ofList]
    exact neighbour_withExtension named stays isExtension_c
  case header =>
    rw [beside, String.toList_ofList]
    exact neighbour_withExtension named stays isExtension_h

/-- The C file of a name whose stem is a single point is not beside itself. -/
theorem not_settled_of_point {parts : FileParts} (named : fileParts? path.toList = some parts)
    (point : (splitName parts.name).1 = ['.']) : ¬ Settled path := by
  intro settled
  have pair := settled.named (Option.isSome_of_eq_some named)
  have source : withExtension (withExtension path.toList ['c']) ['c'] =
      withExtension path.toList ['c'] := by
    have same := congrArg TargetPaths.source settled.stays.source
    simpa only [beside, String.toList_ofList, String.ofList_inj] using same
  have up := withExtension_withExtension_of_point named point isExtension_c ['c']
  have stem := pair.source.stem
  rw [beside, String.toList_ofList, fileStem?, ← source, up, fileStem?, named] at stem
  cases stem

/-- The guard is always one for C. The C files stay where they are, and stand beside the file if
there is one, just if the stem of the file is not a single point. -/
theorem settled_iff (path : String) :
    IsGuard (beside path).guard ∧ (Settled path ↔ fileStem? path.toList ≠ some ['.']) := by
  refine ⟨isGuard_guard _, ?_⟩
  cases named : fileParts? path.toList with
  | none =>
      have noStem : fileStem? path.toList ≠ some ['.'] := by
        rw [fileStem?, named]
        rintro ⟨⟩
      refine iff_of_true ⟨stays_of_unnamed named, ?_, fun _ => beside_of_unnamed named⟩ noStem
      rw [named]
      rintro ⟨⟩
  | some parts =>
      rw [fileStem?, named, Option.map_some, ne_eq, Option.some_inj]
      constructor
      · exact fun settled point => not_settled_of_point named point settled
      · intro proper
        refine ⟨stays_of_named named proper, fun _ => pair_of_named named proper, ?_⟩
        rw [named]
        rintro ⟨⟩

/-- A file whose name has two points in front has no C files beside it, but one folder twice. -/
theorem not_settled_of_two_points : ¬ Settled "..a" := by
  intro settled
  have pair := settled.named (by decide)
  exact pair.different (by decide)

/-- With a slash behind it, the same name has C files, but theirs are the folder again. -/
example : beside "..a/" = ⟨"..c", "..h"⟩ ∧ beside "..c" = ⟨"..", ".."⟩ := by decide

end TargetPaths

end PinTable
