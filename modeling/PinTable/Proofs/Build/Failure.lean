import PinTable.Proofs.Build.Log
import PinTable.Proofs.Manifest.Items

set_option autoImplicit false

namespace PinTable

open Record (atLevel)

theorem mapError_eq_error_iff {ε δ α : Type} (f : ε → δ) (result : Except ε α) (error : δ) :
    result.mapError f = .error error ↔ ∃ reason, result = .error reason ∧ f reason = error := by
  cases result <;> simp [Except.mapError]

namespace Build

variable (read : String → Reading)

/-- The fault of the signal document at a path: it is not loaded, or its layout is another. -/
inductive SignalsFault (path : String) : BuildError → Prop
  | unloaded (reason : DocumentError) (failed : loadDocument path (read path) = .error reason) :
      SignalsFault path (.document reason)
  | refused (value : Json) (reason : DocumentError)
      (loaded : loadDocument path (read path) = .ok value)
      (failed : (SignalIndex.ofJson path value).result = .error reason) :
      SignalsFault path (.document reason)

/-- The fault of the manifest at a path: it is not loaded, or it is loaded and cannot be decoded. -/
inductive ManifestFault (path : String) : BuildError → Prop
  | unloaded (reason : DocumentError) (failed : loadDocument path (read path) = .error reason) :
      ManifestFault path (.document reason)
  | refused (value : Json) (fault : DecodeFault)
      (loaded : loadDocument path (read path) = .ok value)
      (failed : (Manifest.decode (Location.root path) value).result = .error fault) :
      ManifestFault path (.manifest fault)

/-- The first fault of the documents of a plan, with the manifests up to it: none if the signals are
at fault, and else those in front of the one at fault, none of which is, and that one. -/
inductive FirstFault (plan : BuildPlan) : List String → BuildError → Prop
  | signals {path : String} {error : BuildError} (given : plan.signals = some path)
      (fault : SignalsFault read path error) : FirstFault plan [] error
  | manifest {signals : SignalIndex} {front : List String} {path : String} {error : BuildError}
      (areSignals : HoldsSignals read plan.signals signals)
      (before : ∀ earlier ∈ front, ∃ manifest, HoldsManifest read earlier manifest)
      (upTo : front ++ [path] <+: plan.manifests) (fault : ManifestFault read path error) :
      FirstFault plan (front ++ [path]) error

theorem loadSignals_eq_error_iff (path : Option String) (error : BuildError) :
    (loadSignals read path).result = .error error ↔
      ∃ document, path = some document ∧ SignalsFault read document error := by
  cases path with
  | none => simp [loadSignals, Outcome.ok]
  | some path =>
      simp only [loadSignals, Outcome.result_bind, Outcome.result_ofExcept, Outcome.result_report,
        Outcome.result_pure, Outcome.mapError, bind_eq_error_iff, mapError_eq_error_iff,
        mapError_eq_ok_iff, pure_ne_error, reduceCtorEq, and_false, exists_false, or_false,
        Option.some.injEq, exists_eq_left']
      constructor
      · rintro (⟨reason, failed, rfl⟩ | ⟨value, loaded, reason, failed, rfl⟩)
        · exact .unloaded reason failed
        · exact .refused value reason loaded failed
      · rintro (⟨reason, failed⟩ | ⟨value, reason, loaded, failed⟩)
        · exact .inl ⟨reason, failed, rfl⟩
        · exact .inr ⟨value, loaded, reason, failed, rfl⟩

theorem loadManifest_eq_error_iff (path : String) (error : BuildError) :
    (loadManifest read path).result = .error error ↔ ManifestFault read path error := by
  simp only [loadManifest, Outcome.result_bind, Outcome.result_ofExcept, Outcome.result_report,
    Outcome.mapError, bind_eq_error_iff, mapError_eq_error_iff, mapError_eq_ok_iff, reduceCtorEq,
    false_or, true_and, exists_const]
  constructor
  · rintro (⟨reason, failed, rfl⟩ | ⟨value, loaded, fault, failed, rfl⟩)
    · exact .unloaded reason failed
    · exact .refused value fault loaded failed
  · rintro (⟨reason, failed⟩ | ⟨value, fault, loaded, failed⟩)
    · exact .inl ⟨reason, failed, rfl⟩
    · exact .inr ⟨value, loaded, fault, failed, rfl⟩

/-- Manifests are loaded as any items are taken one after the other; positions do not matter. -/
theorem loadManifests_eq_forEachAt (position : Nat) (paths : List String) :
    loadManifests read paths = forEachAt (fun _ path => loadManifest read path) position paths := by
  induction paths generalizing position with
  | nil => rfl
  | cons path rest ih => rw [loadManifests, forEachAt, ih (position + 1)]

/-- The manifests behind one at fault have no part in the outcome. -/
theorem loadManifests_stops (front back : List String) (path : String) (error : BuildError)
    (before : ∀ earlier ∈ front, ∃ manifest, HoldsManifest read earlier manifest)
    (fault : ManifestFault read path error) :
    loadManifests read (front ++ path :: back) =
      ⟨(loadManifests read front).events ++ (loadManifest read path).events, .error error⟩ := by
  obtain ⟨results, gives⟩ := (exists_eachGives_iff
    (fun _ path => (loadManifest read path).result) 0 front
    (fun earlier => ∃ manifest, HoldsManifest read earlier manifest)
    (fun _ _ _ => by simp only [loadManifest_eq_ok_iff])).2 before
  simp only [loadManifests_eq_forEachAt read 0]
  exact forEachAt_stops _ 0 front path back results error gives
    ((loadManifest_eq_error_iff ..).2 fault)

theorem loadManifests_eq_error_iff (paths : List String) (error : BuildError) :
    (loadManifests read paths).result = .error error ↔
      ∃ front path, front ++ [path] <+: paths ∧
        (∀ earlier ∈ front, ∃ manifest, HoldsManifest read earlier manifest) ∧
        ManifestFault read path error := by
  constructor
  · intro failed
    rw [loadManifests_eq_forEachAt read 0, result_forEachAt, forEachAt_eq_error_iff] at failed
    obtain ⟨front, path, back, results, rfl, gives, failed⟩ := failed
    refine ⟨front, path, ⟨back, by simp⟩, ?_, (loadManifest_eq_error_iff ..).1 failed⟩
    exact (exists_eachGives_iff _ 0 front _ fun _ _ _ => by simp only [loadManifest_eq_ok_iff]).1
      ⟨results, gives⟩
  · rintro ⟨front, path, ⟨back, rfl⟩, before, fault⟩
    rw [List.append_assoc, List.singleton_append, loadManifests_stops read _ _ _ _ before fault]

section Readings

variable {read} {other : String → Reading}

theorem loadSignals_congr {path : Option String}
    (same : ∀ document ∈ path.toList, other document = read document) :
    loadSignals other path = loadSignals read path := by
  cases path with
  | none => rfl
  | some path => simp only [loadSignals, same path (List.mem_singleton_self path)]

theorem loadManifest_congr {path : String} (same : other path = read path) :
    loadManifest other path = loadManifest read path := by
  simp only [loadManifest, same]

theorem loadManifests_congr {paths : List String}
    (same : ∀ document ∈ paths, other document = read document) :
    loadManifests other paths = loadManifests read paths := by
  induction paths with
  | nil => rfl
  | cons path rest ih =>
      obtain ⟨first, others⟩ := List.forall_mem_cons.1 same
      rw [loadManifests, loadManifests, loadManifest_congr first, ih others]

end Readings

theorem loads_or_firstFault (plan : BuildPlan) :
    (∃ signals manifests, Loads read plan signals manifests) ∨
      ∃ upTo error, FirstFault read plan upTo error := by
  cases areSignals : (loadSignals read plan.signals).result with
  | error error =>
      obtain ⟨path, given, fault⟩ := (loadSignals_eq_error_iff ..).1 areSignals
      exact .inr ⟨_, error, .signals given fault⟩
  | ok signals =>
      have holds := (loadSignals_eq_ok_iff ..).1 areSignals
      cases areManifests : (loadManifests read plan.manifests).result with
      | error error =>
          obtain ⟨front, path, upTo, before, fault⟩ :=
            (loadManifests_eq_error_iff ..).1 areManifests
          exact .inr ⟨_, error, .manifest holds before upTo fault⟩
      | ok manifests =>
          exact .inl ⟨signals, manifests, holds, (loadManifests_eq_ok_iff ..).1 areManifests⟩

section FirstFault

variable {read} {plan : BuildPlan} {upTo : List String} {error : BuildError}

theorem namingPath?_eq_none_iff :
    namingPath? plan = none ↔ plan.manifests = [] ∧ plan.output = none := by
  rw [namingPath?, Option.or_eq_none_iff, List.head?_eq_none_iff, and_comm]

theorem exists_namingPath (given : plan.manifests ≠ []) : ∃ path, namingPath? plan = some path :=
  Option.ne_none_iff_exists'.1 fun unnamed => given (namingPath?_eq_none_iff.1 unnamed).1

/-- Want of manifests is no fault of a document. -/
theorem FirstFault.ne_noManifests (first : FirstFault read plan upTo error) :
    error ≠ .noManifests := by
  rintro rfl
  cases first with
  | signals _ fault => cases fault
  | manifest _ _ _ fault => cases fault

/-- The outcome is told by the signals and the manifests up to the first fault. -/
theorem FirstFault.compile_eq (first : FirstFault read plan upTo error) {path : String}
    (named : namingPath? plan = some path) :
    compile read plan = ⟨(loadSignals read plan.signals).events ++
      (loadManifests read upTo).events, .error error⟩ := by
  simp only [compile, named]
  cases first with
  | signals isGiven fault =>
      rw [compileFor_of_signals_error ((loadSignals_eq_error_iff ..).2 ⟨_, isGiven, fault⟩)]
      exact congrArg (Outcome.mk · _) (List.append_nil _).symm
  | manifest areSignals before isPrefix fault =>
      obtain ⟨back, split⟩ := isPrefix
      rw [List.append_assoc, List.singleton_append] at split
      have stops := loadManifests_stops read _ back _ error before fault
      rw [compileFor_of_manifests_error ((loadSignals_eq_ok_iff ..).2 areSignals)
        (by rw [← split, stops]), ← split, stops, loadManifests_stops read _ [] _ error before fault]

/-- A plan with the same signals and the same manifests up to the first fault has the same first
fault, where these documents read the same. -/
theorem FirstFault.congr (first : FirstFault read plan upTo error) {other : String → Reading}
    {changed : BuildPlan} (signals : changed.signals = plan.signals)
    (isPrefix : upTo <+: changed.manifests)
    (same : ∀ document ∈ plan.signals.toList ++ upTo, other document = read document) :
    FirstFault other changed upTo error := by
  obtain ⟨sameSignals, sameManifests⟩ := List.forall_mem_append.1 same
  cases first with
  | signals given fault =>
      refine .signals (signals.trans given) ?_
      rw [given] at sameSignals
      have failed := (loadSignals_eq_error_iff read (some _) error).2 ⟨_, rfl, fault⟩
      rw [← loadSignals_congr sameSignals] at failed
      obtain ⟨_, isDocument, stillFault⟩ := (loadSignals_eq_error_iff ..).1 failed
      cases isDocument
      exact stillFault
  | @manifest known front path _ areSignals before _ fault =>
      obtain ⟨sameFront, samePath⟩ := List.forall_mem_append.1 sameManifests
      have stillSignals : HoldsSignals other changed.signals known := by
        rw [signals, ← loadSignals_eq_ok_iff, loadSignals_congr sameSignals]
        exact (loadSignals_eq_ok_iff ..).2 areSignals
      refine .manifest stillSignals (fun earlier member => ?_) isPrefix ?_
      · obtain ⟨manifest, holds⟩ := before earlier member
        refine ⟨manifest, ?_⟩
        rw [← loadManifest_eq_ok_iff, loadManifest_congr (sameFront earlier member)]
        exact (loadManifest_eq_ok_iff ..).2 holds
      · rw [← loadManifest_eq_error_iff,
          loadManifest_congr (samePath _ (List.mem_singleton_self _))]
        exact (loadManifest_eq_error_iff ..).2 fault

end FirstFault

end Build

namespace Directory

/-- The ends of a build whose files are made: it cannot write the source, it writes the source and
cannot write the header, or it writes both. -/
inductive WriteEnd (directory : Directory) (made : Compilation) :
    Directory → Except BuildError TargetPaths → Prop
  | sourceRefused (refused : directory.write? made.paths.source made.source.toUTF8 = none) :
      WriteEnd directory made directory (.error (.unwritable made.paths.source))
  | headerRefused {half : Directory}
      (first : directory.write? made.paths.source made.source.toUTF8 = some half)
      (refused : half.write? made.paths.header made.header.toUTF8 = none) :
      WriteEnd directory made half (.error (.unwritable made.paths.header))
  | written {half after : Directory}
      (first : directory.write? made.paths.source made.source.toUTF8 = some half)
      (second : half.write? made.paths.header made.header.toUTF8 = some after) :
      WriteEnd directory made after (.ok made.paths)

variable {directory : Directory} {plan : BuildPlan}

theorem WriteEnd.ne_noManifests {made : Compilation} {after : Directory}
    {result : Except BuildError TargetPaths} (ends : WriteEnd directory made after result) :
    result ≠ .error .noManifests := by
  rintro rfl
  cases ends

theorem writeEnd_of_compile {made : Compilation}
    (compiled : (Build.compile directory.read plan).result = .ok made) :
    WriteEnd directory made (directory.build plan).1 (directory.build plan).2.result := by
  rcases build_cases directory plan with ⟨error, failed, -, -⟩ |
    ⟨also, compiledAlso, ⟨refused, unchanged, result⟩ | ⟨half, first, ⟨refused, isHalf, result⟩ |
      ⟨after, second, isAfter, result⟩⟩⟩
  · cases failed.symm.trans compiled
  all_goals cases compiled.symm.trans compiledAlso
  · rw [unchanged, result]
    exact .sourceRefused refused
  · rw [isHalf, result]
    exact .headerRefused first refused
  · rw [isAfter, result]
    exact .written first second

theorem build_of_error {error : BuildError}
    (failed : (Build.compile directory.read plan).result = .error error) :
    directory.build plan =
      (directory, ⟨(Build.compile directory.read plan).events, .error error⟩) := by
  simp only [build, failed]

/-- What a build logs as information: both files, if they are made. -/
theorem atLevel_info_build (directory : Directory) (plan : BuildPlan) :
    atLevel .info (directory.build plan).2.log =
      match (Build.compile directory.read plan).result with
      | .ok made => [Build.announcement made.paths]
      | .error _ => [] := by
  obtain ⟨details, areDetails, events⟩ := Build.events_compile directory.read plan
  rw [Outcome.log, events_build, events, List.map_append, Record.atLevel_append,
    Event.atLevel_info_of_detail details areDetails]
  cases (Build.compile directory.read plan).result <;> rfl

/-- The first fault of the documents is the error that ends a build, whatever comes behind it:
another plan that differs only in later manifests, or another directory that differs only in what
these lead to, has the same outcome. Without such a fault the build announces both files and ends as
their writing ends, and one of the two is the case. -/
theorem error_of_build (directory : Directory) (plan : BuildPlan) (given : plan.manifests ≠ []) :
    (∀ upTo error, Build.FirstFault directory.read plan upTo error →
      (directory.build plan).2.result = .error error ∧
      atLevel .info (directory.build plan).2.log = [] ∧
      ∀ (other : Directory) (changed : BuildPlan), changed.signals = plan.signals →
        changed.manifests ≠ [] → upTo <+: changed.manifests →
        (∀ document ∈ plan.signals.toList ++ upTo, other.read document = directory.read document) →
        (other.build changed).2 = (directory.build plan).2) ∧
    (∀ signals manifests, Build.Loads directory.read plan signals manifests →
      ∃ path, Build.namingPath? plan = some path ∧
        WriteEnd directory (Build.filesFor path signals manifests) (directory.build plan).1
          (directory.build plan).2.result ∧
        atLevel .info (directory.build plan).2.log =
          [Build.announcement (TargetPaths.beside path)]) ∧
    ((∃ signals manifests, Build.Loads directory.read plan signals manifests) ∨
      ∃ upTo error, Build.FirstFault directory.read plan upTo error) := by
  refine ⟨fun upTo error first => ?_, fun signals manifests loads => ?_,
    Build.loads_or_firstFault directory.read plan⟩
  · obtain ⟨path, named⟩ := Build.exists_namingPath given
    have outcome := first.compile_eq named
    have failed : (Build.compile directory.read plan).result = .error error := by rw [outcome]
    refine ⟨by rw [build_of_error failed], by rw [atLevel_info_build, failed], ?_⟩
    intro other changed sameSignals stillGiven isPrefix same
    obtain ⟨otherPath, stillNamed⟩ := Build.exists_namingPath stillGiven
    have again := (first.congr sameSignals isPrefix same).compile_eq stillNamed
    obtain ⟨readSignals, readManifests⟩ := List.forall_mem_append.1 same
    rw [sameSignals, Build.loadSignals_congr readSignals,
      Build.loadManifests_congr readManifests, ← outcome] at again
    rw [build_of_error failed, build_of_error (by rw [again, failed]), again]
  · obtain ⟨path, named⟩ := Build.exists_namingPath given
    have compiled := (Build.compile_eq_ok_iff directory.read plan _).2
      ⟨path, signals, manifests, named, loads, rfl⟩
    exact ⟨path, named, writeEnd_of_compile compiled, by rw [atLevel_info_build, compiled]; rfl⟩

/-- One document without devices, and nothing else. -/
def loneDocument : Directory := ⟨[(["io.json"], .file "\x7b\"io\":[]\x7d".toUTF8)]⟩

/-- A manifest that is missing ends a build, whatever is behind it and wherever the files go. -/
theorem error_of_build_loneDocument :
    (loneDocument.build ⟨["io.json", "lost.json"], none, none⟩).2.result =
        .error (.document (.unopened "lost.json")) ∧
      atLevel .info (loneDocument.build ⟨["io.json", "lost.json"], none, none⟩).2.log = [] ∧
      (loneDocument.build ⟨["io.json", "lost.json", "io.json"], none, some "out"⟩).2 =
        (loneDocument.build ⟨["io.json", "lost.json"], none, none⟩).2 ∧
      atLevel .info (loneDocument.build ⟨["io.json"], none, none⟩).2.log =
        [⟨.info, "Writing files io.c and io.h"⟩] := by
  have areSignals : Build.HoldsSignals loneDocument.read none SignalIndex.empty := rfl
  have loads : Build.Loads loneDocument.read ⟨["io.json"], none, none⟩ SignalIndex.empty [⟨[]⟩] :=
    ⟨areSignals, .cons ⟨_, rfl, rfl⟩ .nil⟩
  have first : Build.FirstFault loneDocument.read ⟨["io.json", "lost.json"], none, none⟩
      ["io.json", "lost.json"] (.document (.unopened "lost.json")) := by
    have before : ∀ earlier ∈ ["io.json"], ∃ manifest,
        Build.HoldsManifest loneDocument.read earlier manifest :=
      List.forall_mem_singleton.2 ⟨_, _, rfl, rfl⟩
    have lost : Build.ManifestFault loneDocument.read "lost.json"
        (.document (.unopened "lost.json")) := .unloaded _ rfl
    exact .manifest areSignals before (List.prefix_refl _) lost
  obtain ⟨failed, silent, alike⟩ :=
    (error_of_build loneDocument ⟨["io.json", "lost.json"], none, none⟩ (by decide)).1 _ _ first
  obtain ⟨path, named, -, announced⟩ :=
    (error_of_build loneDocument ⟨["io.json"], none, none⟩ (by decide)).2.1 _ _ loads
  cases named
  exact ⟨failed, silent, alike _ _ rfl (by decide) ⟨["io.json"], rfl⟩ fun _ _ => rfl, announced⟩

/-- A plan without manifests is refused: the error says so, nothing is reported before it, and the
directory is as it was. -/
def RefusedWithoutManifests (directory : Directory) (plan : BuildPlan) : Prop :=
  plan.manifests = [] → directory.build plan = (directory, ⟨[], .error .noManifests⟩)

theorem build_of_unnamed (unnamed : Build.namingPath? plan = none) :
    directory.build plan = (directory, ⟨[], .error .noManifests⟩) := by
  have refused : Build.compile directory.read plan = ⟨[], .error .noManifests⟩ := by
    simp only [Build.compile, unnamed, Outcome.fail]
  rw [build_of_error (by rw [refused]), refused]

/-- A build whose files have a name does not fail for want of manifests. -/
theorem ne_noManifests_of_named {path : String} (named : Build.namingPath? plan = some path) :
    (directory.build plan).2.result ≠ .error .noManifests := by
  intro refused
  rcases Build.loads_or_firstFault directory.read plan with ⟨signals, manifests, loads⟩ |
    ⟨upTo, error, first⟩
  · have ends := writeEnd_of_compile ((Build.compile_eq_ok_iff ..).2
      ⟨path, signals, manifests, named, loads, rfl⟩)
    exact ends.ne_noManifests refused
  · rw [build_of_error (by rw [first.compile_eq named])] at refused
    cases refused
    exact first.ne_noManifests rfl

theorem loads_of_build {paths : TargetPaths} (built : (directory.build plan).2.result = .ok paths) :
    ∃ path signals manifests, Build.namingPath? plan = some path ∧
      Build.Loads directory.read plan signals manifests ∧ paths = TargetPaths.beside path := by
  obtain ⟨⟨path, named, beside⟩, ⟨signals, manifests, loads, -⟩, -, -⟩ :=
    (effect_of_build directory plan).2 paths built
  exact ⟨path, signals, manifests, named, loads, beside⟩

/-- What is refused is a plan in which nothing names the C files. One with an output and without
manifests is built, and it alone is built without a manifest being decoded. -/
theorem refusedWithoutManifests_iff (directory : Directory) (plan : BuildPlan) :
    (RefusedWithoutManifests directory plan ↔ (plan.manifests = [] → plan.output = none)) ∧
    ((directory.build plan).2.result = .error .noManifests ↔
      plan.manifests = [] ∧ plan.output = none) ∧
    ∀ paths, (directory.build plan).2.result = .ok paths →
      ∃ signals manifests, Build.Loads directory.read plan signals manifests ∧
        (manifests = [] ↔ plan.manifests = [] ∧
          ∃ path, plan.output = some path ∧ paths = TargetPaths.beside path) := by
  have unnamed_iff := @Build.namingPath?_eq_none_iff plan
  have refused_iff : (directory.build plan).2.result = .error .noManifests ↔
      plan.manifests = [] ∧ plan.output = none := by
    rw [← unnamed_iff]
    refine ⟨fun refused => ?_, fun unnamed => by rw [build_of_unnamed unnamed]⟩
    cases named : Build.namingPath? plan with
    | none => rfl
    | some path => exact absurd refused (ne_noManifests_of_named named)
  refine ⟨⟨fun refused empty => (refused_iff.1 (by rw [refused empty])).2, fun unnamed empty =>
    build_of_unnamed (unnamed_iff.2 ⟨empty, unnamed empty⟩)⟩, refused_iff, fun paths built => ?_⟩
  obtain ⟨path, signals, manifests, named, loads, rfl⟩ := loads_of_build built
  refine ⟨signals, manifests, loads, fun empty => ?_, fun ⟨empty, _⟩ => ?_⟩
  · have noManifests : plan.manifests = [] := List.forall₂_nil_right_iff.1 (empty ▸ loads.manifests)
    rw [Build.namingPath?, noManifests, List.head?_nil, Option.or_none] at named
    exact ⟨noManifests, path, named, rfl⟩
  · exact List.forall₂_nil_left_iff.1 (empty ▸ loads.manifests)

/-- An output and no manifest make both files, of no device, where there is nothing to read. -/
theorem built_without_manifests :
    ¬ RefusedWithoutManifests ⟨[]⟩ ⟨[], none, some "out"⟩ ∧
      ((⟨[]⟩ : Directory).build ⟨[], none, some "out"⟩).2.result = .ok ⟨"out.c", "out.h"⟩ := by
  have built : ((⟨[]⟩ : Directory).build ⟨[], none, some "out"⟩).2.result =
      .ok ⟨"out.c", "out.h"⟩ := rfl
  refine ⟨fun refused => ?_, built⟩
  rw [refused rfl] at built
  cases built

end Directory

end PinTable
