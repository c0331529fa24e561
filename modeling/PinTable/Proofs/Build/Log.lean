import PinTable.Proofs.Build
import PinTable.Proofs.Listing.Blocks

set_option autoImplicit false

namespace PinTable

namespace Record

/-- The records of a log that stand at a level. -/
def atLevel (level : Level) (log : List Record) : List Record :=
  log.filter fun record => record.level = level

theorem atLevel_append (level : Level) (first second : List Record) :
    atLevel level (first ++ second) = atLevel level first ++ atLevel level second :=
  List.filter_append ..

end Record

open Record (atLevel)

/-- The key of the attribute that a warning is about, if it is about one. -/
def Warning.attribute? : Warning → Option String
  | unknownAttribute _ key | badValue _ key => some key
  | _ => none

namespace Event

/-- The event is a warning, or a note that a run shows only if it is asked to. -/
def IsDetail : Event → Prop
  | warned _ => True
  | noted record => record.level = .debug ∨ record.level = .trace

/-- The event is one of loading documents: a note for those who debug, or a warning that is not about
an attribute. -/
def IsOfLoading : Event → Prop
  | warned warning => warning.attribute? = none
  | noted record => record.level = .debug

theorem IsOfLoading.isDetail {event : Event} (ofLoading : event.IsOfLoading) : event.IsDetail := by
  cases event with
  | warned warning => trivial
  | noted record => exact .inl ofLoading

theorem isDetail_of_warned (list : List Warning) (event : Event)
    (member : event ∈ list.map warned) : event.IsDetail := by
  obtain ⟨warning, _, rfl⟩ := List.mem_map.1 member
  trivial

theorem atLevel_info_of_detail (events : List Event) (details : ∀ event ∈ events, event.IsDetail) :
    atLevel .info (events.map record) = [] := by
  refine List.filter_eq_nil_iff.2 fun entry member => ?_
  obtain ⟨event, isEvent, rfl⟩ := List.mem_map.1 member
  have detail := details event isEvent
  cases event with
  | warned warning => simp [record]
  | noted note => rcases detail with level | level <;> simp [record, level]

/-- The record that a warning leaves in the log. -/
def warningRecord (warning : Warning) : Record := ⟨.warn, warning.message⟩

theorem atLevel_warn_of_detail (events : List Event) (details : ∀ event ∈ events, event.IsDetail) :
    atLevel .warn (events.map record) = (warnings events).map warningRecord := by
  induction events with
  | nil => rfl
  | cons event rest ih =>
      obtain ⟨detail, others⟩ := List.forall_mem_cons.1 details
      have front : atLevel .warn [event.record] = (warnings [event]).map warningRecord := by
        cases event with
        | warned warning => rfl
        | noted note => rcases detail with level | level <;> simp [atLevel, record, warnings, level]
      rw [List.map_cons, ← List.singleton_append, Record.atLevel_append, front, ih others,
        ← List.map_append, ← warnings_append, List.singleton_append]

end Event

namespace Outcome

variable {ε α β : Type}

/-- All that a step reports are events of loading. -/
def Loading (outcome : Outcome ε α) : Prop := ∀ event ∈ outcome.events, event.IsOfLoading

theorem loading_ofExcept (result : Except ε α) : (ofExcept result).Loading :=
  fun _ member => absurd member List.not_mem_nil

theorem loading_pure (value : α) : (pure value : Outcome ε α).Loading :=
  fun _ member => absurd member List.not_mem_nil

theorem loading_debug (message : String) : (report (.debug message) : Outcome ε Unit).Loading :=
  List.forall_mem_singleton.2 rfl

theorem Loading.bind {first : Outcome ε α} {next : α → Outcome ε β} (loading : first.Loading)
    (goesOn : ∀ value, (next value).Loading) : (first >>= next).Loading := by
  rw [bind_eq_andThen]
  cases found : first.result with
  | error error =>
      rw [andThen_of_error _ _ _ found]
      exact loading
  | ok value =>
      rw [andThen_of_ok _ _ _ found]
      exact List.forall_mem_append.2 ⟨loading, goesOn value⟩

theorem loading_forEachAt (step : Nat → α → Outcome ε β)
    (each : ∀ position item, (step position item).Loading) (position : Nat) (items : List α) :
    (forEachAt step position items).Loading := by
  induction items generalizing position with
  | nil => exact loading_pure []
  | cons item rest ih =>
      exact (each position item).bind fun _ => (ih (position + 1)).bind fun _ => loading_pure _

end Outcome

open Outcome (loading_ofExcept loading_pure loading_debug loading_forEachAt)

theorem PinGroup.loading_decode (device : String) (place : Location) (value : Json) :
    (PinGroup.decode device place value).Loading := by
  refine (loading_ofExcept _).bind fun object => (loading_ofExcept _).bind fun kindName => ?_
  split
  · exact List.forall_mem_singleton.2 rfl
  · exact (loading_ofExcept _).bind fun _ => loading_pure _

theorem Device.loading_decode (place : Location) (value : Json) :
    (Device.decode place value).Loading :=
  (loading_ofExcept _).bind fun _ => (loading_ofExcept _).bind fun _ =>
    (loading_ofExcept _).bind fun _ => (loading_ofExcept _).bind fun _ =>
      (loading_ofExcept _).bind fun _ =>
        (loading_forEachAt _ (fun _ _ => PinGroup.loading_decode _ _ _) _ _).bind fun _ =>
          loading_pure _

theorem Manifest.loading_decode (place : Location) (value : Json) :
    (Manifest.decode place value).Loading :=
  (loading_ofExcept _).bind fun _ => (loading_ofExcept _).bind fun _ =>
    (loading_ofExcept _).bind fun _ =>
      (loading_forEachAt _ (fun _ _ => Device.loading_decode _ _) _ _).bind fun _ =>
        loading_pure _

theorem SignalIndex.loading_ofJson (document : String) (value : Json) :
    (SignalIndex.ofJson document value).Loading := by
  unfold SignalIndex.ofJson
  split
  · exact fun _ member => absurd member List.not_mem_nil
  · unfold SignalIndex.ofDocument
    split
    · exact List.forall_mem_singleton.2 rfl
    · exact List.forall_mem_singleton.2 rfl
    · intro event member
      obtain ⟨warning, isWarning, rfl⟩ := List.mem_map.1 member
      obtain ⟨block, _, unnamed⟩ := List.mem_filterMap.1 isWarning
      split at unnamed <;> cases unnamed
      rfl

theorem Listing.detailed_groupEvents (group : PinGroup) :
    ∀ event ∈ groupEvents group, event.IsDetail := by
  refine List.forall_mem_cons.2 ⟨.inr rfl, fun event member => ?_⟩
  obtain ⟨pin, _, warned⟩ := List.mem_flatMap.1 member
  exact Event.isDetail_of_warned _ event warned

theorem Listing.detailed_deviceEvents (device : Device) :
    ∀ event ∈ deviceEvents device, event.IsDetail := by
  refine List.forall_mem_cons.2 ⟨.inl rfl, fun event member => ?_⟩
  obtain ⟨group, _, noted⟩ := List.mem_flatMap.1 member
  exact detailed_groupEvents group event noted

theorem Listing.detailed_ofManifests (guard : String) (signals : SignalIndex)
    (manifests : List Manifest) :
    ∀ event ∈ (ofManifests guard signals manifests).events, event.IsDetail := by
  simp only [ofManifests_eq, Block.events_append, List.forall_mem_append]
  refine ⟨⟨⟨fun _ member => absurd member List.not_mem_nil, fun event member => ?_⟩, ?_⟩, ?_⟩
  · obtain ⟨block, isBlock, reported⟩ := List.mem_flatMap.1 member
    obtain ⟨device, _, rfl⟩ := List.mem_map.1 isBlock
    exact detailed_deviceEvents device event reported
  · exact List.forall_mem_singleton.2 (.inl rfl)
  · exact List.forall_mem_singleton.2 (.inr rfl)

namespace Build

variable (read : String → Reading)

theorem loading_loadSignals (path : Option String) : (loadSignals read path).Loading := by
  cases path with
  | none => exact loading_pure SignalIndex.empty
  | some path =>
      refine (loading_ofExcept _).bind fun value => Outcome.Loading.bind ?_ fun signals =>
        (loading_debug _).bind fun _ => loading_pure signals
      exact SignalIndex.loading_ofJson path value

theorem loading_loadManifest (path : String) : (loadManifest read path).Loading := by
  refine (loading_debug _).bind fun _ => (loading_ofExcept _).bind fun value => ?_
  exact Manifest.loading_decode (.root path) value

theorem loading_loadManifests (paths : List String) : (loadManifests read paths).Loading := by
  induction paths with
  | nil => exact loading_pure []
  | cons path rest ih =>
      exact (loading_loadManifest read path).bind fun _ => ih.bind fun _ => loading_pure _

/-- The record that tells of both files before they are written. -/
def announcement (paths : TargetPaths) : Record :=
  ⟨.info, "Writing files " ++ paths.source ++ " and " ++ paths.header⟩

section Ends

variable {read} {paths : TargetPaths} {plan : BuildPlan}

theorem compileFor_of_signals_error {error : BuildError}
    (failed : (loadSignals read plan.signals).result = .error error) :
    compileFor paths read plan = ⟨(loadSignals read plan.signals).events, .error error⟩ := by
  rw [compileFor, Outcome.bind_eq_andThen, Outcome.andThen_of_error _ _ _ failed]

theorem compileFor_of_manifests_error {signals : SignalIndex} {error : BuildError}
    (areSignals : (loadSignals read plan.signals).result = .ok signals)
    (failed : (loadManifests read plan.manifests).result = .error error) :
    compileFor paths read plan = ⟨(loadSignals read plan.signals).events ++
      (loadManifests read plan.manifests).events, .error error⟩ := by
  rw [compileFor, Outcome.bind_eq_andThen, Outcome.andThen_of_ok _ _ _ areSignals,
    Outcome.bind_eq_andThen, Outcome.andThen_of_error _ _ _ failed]

theorem compileFor_of_ok {signals : SignalIndex} {manifests : List Manifest}
    (areSignals : (loadSignals read plan.signals).result = .ok signals)
    (areManifests : (loadManifests read plan.manifests).result = .ok manifests) :
    let files := Listing.ofManifests paths.guard signals manifests
    compileFor paths read plan = ⟨(loadSignals read plan.signals).events ++
      ((loadManifests read plan.manifests).events ++
        (files.events ++ [.noted (announcement paths)])),
      .ok ⟨paths, files.headerText, files.sourceText⟩⟩ := by
  rw [compileFor, Outcome.bind_eq_andThen, Outcome.andThen_of_ok _ _ _ areSignals,
    Outcome.bind_eq_andThen, Outcome.andThen_of_ok _ _ _ areManifests]
  rfl

end Ends

/-- A compilation that fails has come no further than loading. -/
theorem loading_of_compile_error {plan : BuildPlan} {error : BuildError}
    (failed : (compile read plan).result = .error error) : (compile read plan).Loading := by
  have signalsLoading := loading_loadSignals read plan.signals
  have manifestsLoading := loading_loadManifests read plan.manifests
  unfold compile at failed ⊢
  cases named : namingPath? plan with
  | none => exact fun _ member => absurd member List.not_mem_nil
  | some path =>
      simp only [named] at failed
      cases areSignals : (loadSignals read plan.signals).result with
      | error reason =>
          simp only [compileFor_of_signals_error areSignals]
          exact signalsLoading
      | ok signals =>
          cases areManifests : (loadManifests read plan.manifests).result with
          | error reason =>
              simp only [compileFor_of_manifests_error areSignals areManifests]
              exact List.forall_mem_append.2 ⟨signalsLoading, manifestsLoading⟩
          | ok manifests =>
              rw [compileFor_of_ok areSignals areManifests] at failed
              cases failed

/-- The events of a compilation that makes both files: those of loading, those of making the files,
and the announcement. -/
theorem events_of_compile_ok {plan : BuildPlan} {made : Compilation}
    (compiled : (compile read plan).result = .ok made) :
    ∃ signals manifests, Loads read plan signals manifests ∧
      (compile read plan).events = (loadSignals read plan.signals).events ++
        ((loadManifests read plan.manifests).events ++
          ((Listing.ofManifests made.paths.guard signals manifests).events ++
            [.noted (announcement made.paths)])) := by
  obtain ⟨path, signals, manifests, named, loads, rfl⟩ := (compile_eq_ok_iff ..).1 compiled
  refine ⟨signals, manifests, loads, ?_⟩
  simp only [compile, named]
  rw [compileFor_of_ok ((loadSignals_eq_ok_iff ..).2 loads.signals)
    ((loadManifests_eq_ok_iff ..).2 loads.manifests)]
  rfl

/-- A compilation reports details, and both files once they are made. -/
theorem events_compile (plan : BuildPlan) :
    ∃ details, (∀ event ∈ details, Event.IsDetail event) ∧
      (compile read plan).events = details ++
        match (compile read plan).result with
        | .ok made => [.noted (announcement made.paths)]
        | .error _ => [] := by
  cases compiled : (compile read plan).result with
  | error error =>
      exact ⟨_, fun event member => (loading_of_compile_error read compiled event member).isDetail,
        (List.append_nil _).symm⟩
  | ok made =>
      obtain ⟨signals, manifests, -, events⟩ := events_of_compile_ok read compiled
      rw [← List.append_assoc, ← List.append_assoc] at events
      refine ⟨_, List.forall_mem_append.2 ⟨fun event member => Event.IsOfLoading.isDetail ?_,
        Listing.detailed_ofManifests _ _ _⟩, events⟩
      rcases List.mem_append.1 member with ofSignals | ofManifests
      · exact loading_loadSignals read _ event ofSignals
      · exact loading_loadManifests read _ event ofManifests

end Build

namespace Directory

variable (directory : Directory) (plan : BuildPlan)

/-- Writing reports nothing. -/
theorem events_build :
    (directory.build plan).2.events = (Build.compile directory.read plan).events := by
  unfold build
  dsimp only
  split
  · rfl
  · split <;> rfl

end Directory

end PinTable
