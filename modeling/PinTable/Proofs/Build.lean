import PinTable.Build
import PinTable.Proofs.Directory
import PinTable.Proofs.Manifest.Sequence

set_option autoImplicit false

namespace PinTable

namespace Outcome

variable {ε δ α : Type}

@[simp] theorem result_report (event : Event) : (report event : Outcome ε Unit).result = .ok () :=
  rfl

theorem result_mapError_eq_ok_iff (f : ε → δ) (outcome : Outcome ε α) (value : α) :
    (outcome.mapError f).result = .ok value ↔ outcome.result = .ok value := by
  unfold mapError
  cases outcome.result <;> simp [Except.mapError]

end Outcome

theorem mapError_eq_ok_iff {ε δ α : Type} (f : ε → δ) (result : Except ε α) (value : α) :
    result.mapError f = .ok value ↔ result = .ok value :=
  Outcome.result_mapError_eq_ok_iff f (.ofExcept result) value

namespace Build

/-- What the signals of a plan are: none without a path, and else those of its document. -/
def HoldsSignals (read : String → Reading) : Option String → SignalIndex → Prop
  | none, signals => signals = SignalIndex.empty
  | some path, signals => ∃ value, loadDocument path (read path) = .ok value ∧
      (SignalIndex.ofJson path value).result = .ok signals

def HoldsManifest (read : String → Reading) (path : String) (manifest : Manifest) : Prop :=
  ∃ value, loadDocument path (read path) = .ok value ∧
    (Manifest.decode (Location.root path) value).result = .ok manifest

/-- The signals and the manifests that the documents of a plan hold. -/
structure Loads (read : String → Reading) (plan : BuildPlan) (signals : SignalIndex)
    (manifests : List Manifest) : Prop where
  signals : HoldsSignals read plan.signals signals
  manifests : List.Forall₂ (HoldsManifest read) plan.manifests manifests

theorem loadSignals_eq_ok_iff (read : String → Reading) (path : Option String)
    (signals : SignalIndex) :
    (loadSignals read path).result = .ok signals ↔ HoldsSignals read path signals := by
  cases path with
  | none =>
      simp only [loadSignals, HoldsSignals, Outcome.ok, Except.ok.injEq]
      exact eq_comm
  | some path =>
      simp only [loadSignals, HoldsSignals, Outcome.result_bind, Outcome.result_ofExcept,
        Outcome.result_report, Outcome.result_pure, Outcome.result_mapError_eq_ok_iff,
        bind_eq_ok_iff, mapError_eq_ok_iff, pure_eq_ok_iff, true_and, exists_const,
        exists_eq_right]

theorem loadManifest_eq_ok_iff (read : String → Reading) (path : String) (manifest : Manifest) :
    (loadManifest read path).result = .ok manifest ↔ HoldsManifest read path manifest := by
  simp only [loadManifest, HoldsManifest, Outcome.result_bind, Outcome.result_ofExcept,
    Outcome.result_report, Outcome.result_mapError_eq_ok_iff, bind_eq_ok_iff, mapError_eq_ok_iff,
    true_and, exists_const]

theorem loadManifests_eq_ok_iff (read : String → Reading) (paths : List String)
    (manifests : List Manifest) :
    (loadManifests read paths).result = .ok manifests ↔
      List.Forall₂ (HoldsManifest read) paths manifests := by
  induction paths generalizing manifests with
  | nil =>
      rw [List.forall₂_nil_left_iff, loadManifests, Outcome.ok, Except.ok.injEq]
      exact eq_comm
  | cons path rest ih =>
      simp only [loadManifests, Outcome.result_bind, Outcome.result_pure, bind_eq_ok_iff,
        pure_eq_ok_iff, loadManifest_eq_ok_iff, ih, List.forall₂_cons_left_iff]
      constructor
      · rintro ⟨first, isFirst, others, areOthers, rfl⟩
        exact ⟨first, others, isFirst, areOthers, rfl⟩
      · rintro ⟨first, others, isFirst, areOthers, rfl⟩
        exact ⟨first, isFirst, others, areOthers, rfl⟩

/-- Both C files for a path, made from signals and manifests. -/
def filesFor (path : String) (signals : SignalIndex) (manifests : List Manifest) : Compilation :=
  let paths := TargetPaths.beside path
  let files := Listing.ofManifests paths.guard signals manifests
  ⟨paths, files.headerText, files.sourceText⟩

theorem compile_eq_ok_iff (read : String → Reading) (plan : BuildPlan) (made : Compilation) :
    (compile read plan).result = .ok made ↔
      ∃ path signals manifests, namingPath? plan = some path ∧
        Loads read plan signals manifests ∧ made = filesFor path signals manifests := by
  unfold compile
  cases namingPath? plan with
  | none => simp [Outcome.fail]
  | some path =>
      simp only [compileFor, Outcome.result_bind, Outcome.reporting, bind_eq_ok_iff,
        loadSignals_eq_ok_iff, loadManifests_eq_ok_iff, Except.ok.injEq, Option.some.injEq]
      constructor
      · rintro ⟨signals, areSignals, manifests, areManifests, rfl⟩
        exact ⟨path, signals, manifests, rfl, ⟨areSignals, areManifests⟩, rfl⟩
      · rintro ⟨_, signals, manifests, rfl, loads, rfl⟩
        exact ⟨signals, loads.signals, manifests, loads.manifests, rfl⟩

theorem paths_of_compile {read : String → Reading} {plan : BuildPlan} {made : Compilation}
    (compiled : (compile read plan).result = .ok made) :
    ∃ path, namingPath? plan = some path ∧ made.paths = TargetPaths.beside path := by
  obtain ⟨path, _, _, named, -, rfl⟩ := (compile_eq_ok_iff ..).1 compiled
  exact ⟨path, named, rfl⟩

end Build

namespace Directory

/-- A path that ends in a point and a letter leads to a name in the folder that the segments before
the name lead to. Whether there is such a folder does not depend on the letter. -/
theorem locate?_of_extension (directory : Directory) (before : List (List Char)) (stem : List Char)
    (bare : ∀ segment ∈ before, '/' ∉ segment) (bareStem : '/' ∉ stem) (filled : stem ≠ [])
    (letter : Char) (apart : letter ≠ '/') (visible : letter ≠ '\x00') (place : Place) :
    directory.locate? (String.ofList (Path.join (before ++ [stem ++ ['.', letter]]))) = some place ↔
      '\x00' ∉ Path.join (before ++ [stem ++ ['.']]) ∧
        ∃ folder, directory.follow? (start before).1 (start before).2 = some folder ∧
          directory.nodeAt? folder = some .folder ∧
          folder ++ [String.ofList (stem ++ ['.', letter])] = place := by
  have cut : Path.segments (Path.join (before ++ [stem ++ ['.', letter]])) =
      before ++ [stem ++ ['.', letter]] :=
    Path.segments_join_concat _ _ bare (by simp [bareStem, apart.symm])
  have long : 2 < (stem ++ ['.', letter]).length := by
    have := List.length_pos_iff.2 filled
    simp only [List.length_append, List.length_cons, List.length_nil]
    omega
  have split : Path.join (before ++ [stem ++ ['.', letter]]) =
      Path.join (before ++ [stem ++ ['.']]) ++ [letter] := by
    rw [← Path.join_append_last, List.append_assoc]
    rfl
  rw [locate?_of_name directory _ place before _ (by rw [String.toList_ofList]; exact cut) long,
    String.toList_ofList]
  simp [split, visible.symm]

/-- The paths of both C files lead to two places, or nothing can be written to either of them. -/
theorem places_of_targets (directory : Directory) (path : String) :
    (∃ source header, source ≠ header ∧
      directory.locate? (TargetPaths.beside path).source = some source ∧
      directory.locate? (TargetPaths.beside path).header = some header) ∨
    ∀ contents, directory.write? (TargetPaths.beside path).source contents = none ∧
      directory.write? (TargetPaths.beside path).header contents = none := by
  simp only [write?_eq_none_iff, forall_const]
  rcases Path.withExtension_cases path.toList with ⟨folder, ends, same⟩ |
    ⟨before, stem, bare, bareStem, filled, extended⟩
  · right
    have ending : Path.EndsAtFolder (String.ofList folder).toList := by rwa [String.toList_ofList]
    simp only [TargetPaths.beside, same, and_self]
    exact fun place => folder_of_endsAtFolder directory _ place ending
  · simp only [TargetPaths.beside, extended]
    have leads := locate?_of_extension directory before stem bare bareStem filled
    by_cases reachable : '\x00' ∉ Path.join (before ++ [stem ++ ['.']]) ∧
        ∃ folder, directory.follow? (start before).1 (start before).2 = some folder ∧
          directory.nodeAt? folder = some .folder
    · obtain ⟨visible, folder, followed, isFolder⟩ := reachable
      refine .inl ⟨_, _, ?_,
        (leads 'c' (by decide) (by decide) _).2 ⟨visible, folder, followed, isFolder, rfl⟩,
        (leads 'h' (by decide) (by decide) _).2 ⟨visible, folder, followed, isFolder, rfl⟩⟩
      simp
    · right
      have nowhere : ∀ letter, letter ≠ '/' → letter ≠ '\x00' → ∀ place,
          directory.locate? (String.ofList (Path.join (before ++ [stem ++ ['.', letter]]))) ≠
            some place := by
        intro letter apart visible place found
        obtain ⟨clean, folder, followed, isFolder, -⟩ := (leads letter apart visible place).1 found
        exact reachable ⟨clean, folder, followed, isFolder⟩
      exact ⟨fun place found => absurd found (nowhere 'c' (by decide) (by decide) place),
        fun place found => absurd found (nowhere 'h' (by decide) (by decide) place)⟩

variable (directory : Directory) (plan : BuildPlan)

/-- A build ends with nothing made, with one of the files not written, or with both written. -/
theorem build_cases :
    (∃ error, (Build.compile directory.read plan).result = .error error ∧
      (directory.build plan).1 = directory ∧
      (directory.build plan).2.result = .error error) ∨
    ∃ made, (Build.compile directory.read plan).result = .ok made ∧
      ((directory.write? made.paths.source made.source.toUTF8 = none ∧
        (directory.build plan).1 = directory ∧
        (directory.build plan).2.result = .error (.unwritable made.paths.source)) ∨
      ∃ half, directory.write? made.paths.source made.source.toUTF8 = some half ∧
        ((half.write? made.paths.header made.header.toUTF8 = none ∧
          (directory.build plan).1 = half ∧
          (directory.build plan).2.result = .error (.unwritable made.paths.header)) ∨
        ∃ after, half.write? made.paths.header made.header.toUTF8 = some after ∧
          (directory.build plan).1 = after ∧
          (directory.build plan).2.result = .ok made.paths)) := by
  cases compiled : (Build.compile directory.read plan).result with
  | error error => exact .inl ⟨error, rfl, by simp only [build, compiled, and_self]⟩
  | ok made =>
      refine .inr ⟨made, rfl, ?_⟩
      simp only [build, compiled, Compilation.files, writeAll]
      cases directory.write? made.paths.source made.source.toUTF8 with
      | none => simp
      | some half =>
          refine .inr ⟨half, rfl, ?_⟩
          cases written : half.write? made.paths.header made.header.toUTF8 with
          | none => exact .inl ⟨rfl, by simp only [written, and_self]⟩
          | some after => exact .inr ⟨after, rfl, by simp only [written, and_self]⟩

variable {directory plan}

/-- Once the source is written, the header can be unless its path leads to a folder. -/
theorem after_source {made : Compilation} {half : Directory}
    (compiled : (Build.compile directory.read plan).result = .ok made)
    (first : directory.write? made.paths.source made.source.toUTF8 = some half) :
    ∃ source header, directory.locate? made.paths.source = some source ∧
      directory.locate? made.paths.header = some header ∧ source ≠ header ∧
      half.read made.paths.header = directory.read made.paths.header ∧
      (half.write? made.paths.header made.header.toUTF8 = none ↔
        directory.read made.paths.header = .folder) := by
  obtain ⟨path, -, beside⟩ := Build.paths_of_compile compiled
  have places := places_of_targets directory path
  rw [← beside] at places
  rcases places with ⟨source, header, apart, toSource, toHeader⟩ | blocked
  · have written := written_of_write? _ _ _ _ first
    have kept := written.read_other _ header toHeader fun same =>
      apart (Option.some.inj (toSource.symm.trans same))
    refine ⟨source, header, toSource, toHeader, apart, kept, ?_⟩
    rw [write?_eq_none_iff_folder half _ header _ ((written.ways _).trans toHeader), kept]
  · cases first.symm.trans (blocked _).1

/-- The header does not take the place of the source. -/
theorem pair_of_writes {made : Compilation} {half after : Directory}
    (compiled : (Build.compile directory.read plan).result = .ok made)
    (first : directory.write? made.paths.source made.source.toUTF8 = some half)
    (second : half.write? made.paths.header made.header.toUTF8 = some after) :
    after.read made.paths.source = .file made.source.toUTF8 ∧
      after.read made.paths.header = .file made.header.toUTF8 := by
  obtain ⟨source, header, toSource, toHeader, apart, -, -⟩ := after_source compiled first
  have early := written_of_write? _ _ _ _ first
  have late := written_of_write? _ _ _ _ second
  have kept : after.read made.paths.source = half.read made.paths.source := by
    refine late.read_other _ source ((early.ways _).trans toSource) fun same => apart ?_
    rw [early.ways, toHeader] at same
    exact (Option.some.inj same).symm
  exact ⟨kept.trans early.holds, late.holds⟩

/-- What a build with these target paths leaves behind: they lead to both C files, made from what
all paths led to before, and nothing else is changed. -/
structure Effect (directory : Directory) (plan : BuildPlan) (paths : TargetPaths)
    (after : Directory) : Prop where
  named : ∃ path, Build.namingPath? plan = some path ∧ paths = TargetPaths.beside path
  made : ∃ signals manifests, Build.Loads directory.read plan signals manifests ∧
    after.read paths.source =
      .file (Listing.ofManifests paths.guard signals manifests).sourceText.toUTF8 ∧
    after.read paths.header =
      .file (Listing.ofManifests paths.guard signals manifests).headerText.toUTF8
  ways : ∀ path, after.locate? path = directory.locate? path
  others : ∀ place, directory.locate? paths.source ≠ some place →
    directory.locate? paths.header ≠ some place → after.nodeAt? place = directory.nodeAt? place

theorem effect_of_writes {made : Compilation} {half after : Directory}
    (compiled : (Build.compile directory.read plan).result = .ok made)
    (first : directory.write? made.paths.source made.source.toUTF8 = some half)
    (second : half.write? made.paths.header made.header.toUTF8 = some after) :
    Effect directory plan made.paths after := by
  obtain ⟨holdsSource, holdsHeader⟩ := pair_of_writes compiled first second
  have early := written_of_write? _ _ _ _ first
  have late := written_of_write? _ _ _ _ second
  obtain ⟨path, signals, manifests, named, loads, rfl⟩ := (Build.compile_eq_ok_iff ..).1 compiled
  refine ⟨⟨path, named, rfl⟩, ⟨signals, manifests, loads, holdsSource, holdsHeader⟩,
    fun other => (late.ways other).trans (early.ways other), fun place notSource notHeader => ?_⟩
  rw [late.others place (by rwa [early.ways]), early.others place notSource]

/-- A build that ends in an error other than that of writing leaves the directory as it was. One
that succeeds writes its two target paths and nothing else, and what it writes is made from what all
paths led to before. -/
theorem effect_of_build (directory : Directory) (plan : BuildPlan) :
    (∀ error, (directory.build plan).2.result = .error error →
      (∀ path, error ≠ .unwritable path) → (directory.build plan).1 = directory) ∧
    ∀ paths, (directory.build plan).2.result = .ok paths →
      Effect directory plan paths (directory.build plan).1 := by
  rcases build_cases directory plan with ⟨error, -, unchanged, failed⟩ |
    ⟨made, compiled, ⟨-, unchanged, failed⟩ | ⟨half, first, ⟨-, -, failed⟩ |
      ⟨after, second, isAfter, succeeded⟩⟩⟩
  · refine ⟨fun _ _ _ => unchanged, fun paths success => ?_⟩
    cases failed.symm.trans success
  · refine ⟨fun _ _ _ => unchanged, fun paths success => ?_⟩
    cases failed.symm.trans success
  · refine ⟨fun error reported other => ?_, fun paths success => ?_⟩
    · cases failed.symm.trans reported
      exact absurd rfl (other _)
    · cases failed.symm.trans success
  · refine ⟨fun error reported _ => ?_, fun paths success => ?_⟩
    · cases succeeded.symm.trans reported
    · cases succeeded.symm.trans success
      rw [isAfter]
      exact effect_of_writes compiled first second

/-- One document, which stands where its own source goes. -/
def ownDocument : Directory :=
  ⟨[(["io.c"], .file
    "\x7b\"io\":[\x7b\"groups\":[\x7b\"name\":\"inputs\",\"pins\":[\x7b\"name\":\"key\"\x7d]\x7d]\x7d]\x7d".toUTF8)]⟩

theorem effect_of_build_ownDocument :
    (ownDocument.build ⟨["absent.json"], none, some "io"⟩).1 = ownDocument ∧
    Effect ownDocument ⟨["io.c"], none, none⟩ ⟨"io.c", "io.h"⟩
      (ownDocument.build ⟨["io.c"], none, none⟩).1 :=
  ⟨(effect_of_build ownDocument ⟨["absent.json"], none, some "io"⟩).1
      (.document (.unopened "absent.json")) rfl (fun _ same => by cases same),
    (effect_of_build ownDocument ⟨["io.c"], none, none⟩).2 ⟨"io.c", "io.h"⟩ rfl⟩

/-- Both paths lead to the files of this build, or neither leads to anything else than before. -/
def AllOrNothing (directory : Directory) (plan : BuildPlan) (after : Directory) : Prop :=
  (∃ made, (Build.compile directory.read plan).result = .ok made ∧
    after.read made.paths.source = .file made.source.toUTF8 ∧
    after.read made.paths.header = .file made.header.toUTF8) ∨
  ∀ path, Build.namingPath? plan = some path →
    after.read (TargetPaths.beside path).source = directory.read (TargetPaths.beside path).source ∧
    after.read (TargetPaths.beside path).header = directory.read (TargetPaths.beside path).header

/-- The files can be made and the source can be written and is a new one, but the path of the header
leads to a folder. -/
def HeaderBlocked (directory : Directory) (plan : BuildPlan) : Prop :=
  ∃ made, (Build.compile directory.read plan).result = .ok made ∧
    (directory.write? made.paths.source made.source.toUTF8).isSome = true ∧
    directory.read made.paths.source ≠ .file made.source.toUTF8 ∧
    directory.read made.paths.header = .folder

theorem headerBlocked_iff {made : Compilation} {half : Directory}
    (compiled : (Build.compile directory.read plan).result = .ok made)
    (first : directory.write? made.paths.source made.source.toUTF8 = some half) :
    HeaderBlocked directory plan ↔
      directory.read made.paths.source ≠ .file made.source.toUTF8 ∧
        directory.read made.paths.header = .folder := by
  constructor
  · rintro ⟨also, compiledAlso, -, rest⟩
    cases compiled.symm.trans compiledAlso
    exact rest
  · rintro rest
    exact ⟨made, compiled, by rw [first]; rfl, rest⟩

/-- With the source alone written, nothing is torn apart only if the source was there before. -/
theorem allOrNothing_half_iff {made : Compilation} {half : Directory}
    (compiled : (Build.compile directory.read plan).result = .ok made)
    (first : directory.write? made.paths.source made.source.toUTF8 = some half)
    (refused : half.write? made.paths.header made.header.toUTF8 = none) :
    AllOrNothing directory plan half ↔
      directory.read made.paths.source = .file made.source.toUTF8 := by
  obtain ⟨source, header, toSource, toHeader, apart, kept, blocked⟩ := after_source compiled first
  have written := written_of_write? _ _ _ _ first
  obtain ⟨path, named, beside⟩ := Build.paths_of_compile compiled
  constructor
  · rintro (⟨also, compiledAlso, -, whole⟩ | same)
    · cases compiled.symm.trans compiledAlso
      rw [kept, blocked.1 refused] at whole
      cases whole
    · obtain ⟨unchanged, -⟩ := same path named
      rw [← beside, written.holds] at unchanged
      exact unchanged.symm
  · refine fun unchanged => .inr fun other namedAlso => ?_
    cases named.symm.trans namedAlso
    rw [← beside]
    exact ⟨written.holds.trans unchanged.symm, kept⟩

/-- A folder in the place of the header is all that sets both files apart. -/
theorem allOrNothing_iff (directory : Directory) (plan : BuildPlan) :
    AllOrNothing directory plan (directory.build plan).1 ↔ ¬ HeaderBlocked directory plan := by
  have same : AllOrNothing directory plan directory := .inr fun _ _ => ⟨rfl, rfl⟩
  rcases build_cases directory plan with ⟨error, failed, unchanged, -⟩ |
    ⟨made, compiled, ⟨refused, unchanged, -⟩ | ⟨half, first, ends⟩⟩
  · rw [unchanged]
    refine iff_of_true same ?_
    rintro ⟨made, compiled, -⟩
    cases failed.symm.trans compiled
  · rw [unchanged]
    refine iff_of_true same ?_
    rintro ⟨also, compiledAlso, written, -⟩
    cases compiled.symm.trans compiledAlso
    rw [refused] at written
    cases written
  · obtain ⟨_, _, _, _, _, _, blocked⟩ := after_source compiled first
    rw [headerBlocked_iff compiled first, not_and_or, not_not]
    rcases ends with ⟨refused, isHalf, -⟩ | ⟨after, second, isAfter, -⟩
    · rw [isHalf, allOrNothing_half_iff compiled first refused]
      exact (or_iff_left fun free => free (blocked.1 refused)).symm
    · rw [isAfter]
      have both := pair_of_writes compiled first second
      refine iff_of_true (.inl ⟨made, compiled, both⟩) (.inr fun folder => ?_)
      cases second.symm.trans (blocked.2 folder)

/-- A document without pins, and a folder where its header goes. -/
def folderForHeader : Directory :=
  ⟨[(["io.json"], .file "\x7b\"io\":[]\x7d".toUTF8), (["io.h"], .folder)]⟩

theorem source_alone_folderForHeader :
    ¬ AllOrNothing folderForHeader ⟨["io.json"], none, none⟩
      (folderForHeader.build ⟨["io.json"], none, none⟩).1 := by
  have source : ∃ contents, (folderForHeader.build ⟨["io.json"], none, none⟩).1.read "io.c" =
      .file contents := ⟨_, rfl⟩
  have header : (folderForHeader.build ⟨["io.json"], none, none⟩).1.read "io.h" = .folder := rfl
  have nothing : folderForHeader.read "io.c" = .absent := rfl
  have targets : TargetPaths.beside "io.json" = ⟨"io.c", "io.h"⟩ := by decide
  rintro (⟨made, compiled, -, whole⟩ | same)
  · obtain ⟨path, named, beside⟩ := Build.paths_of_compile compiled
    cases named
    rw [beside, targets, header] at whole
    cases whole
  · obtain ⟨unchanged, -⟩ := same "io.json" rfl
    obtain ⟨contents, holds⟩ := source
    rw [targets, holds, nothing] at unchanged
    cases unchanged

end Directory

end PinTable
