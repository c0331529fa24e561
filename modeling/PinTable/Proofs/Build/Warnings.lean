import PinTable.Proofs.Build.Failure
import PinTable.Proofs.Manifest.Notices
import PinTable.Proofs.Manifest.Origin

set_option autoImplicit false

namespace PinTable

open Entries (find?)
open Record (atLevel)

namespace Json

/-- The warning about an entry of a pin: its key is none of a parameter, or its value stands for no
integer. The keys that place a pin are nothing to warn about. -/
def attributeNotice? (pin : String) (entry : String × Json) : Option Warning :=
  if entry.1 ∈ structuralKeys then none
  else
    match Parameter.ofKey? entry.1 with
    | none => some (.unknownAttribute pin entry.1)
    | some _ => if entry.2.integerLike? = none then some (.badValue pin entry.1) else none

/-- The warnings about the entries of a pin, in their order. -/
def pinNotices : Json → List Warning
  | object entries =>
      match find? "name" entries with
      | some (string name) => entries.filterMap (attributeNotice? name)
      | _ => []
  | _ => []

/-- The warnings about the attributes of all pins, in groups of known kind. -/
def attributeNotices (root : Json) : List Warning :=
  (root.itemsUnder "io").flatMap fun device =>
    ((device.itemsUnder "groups").filter isGroupOfKind).flatMap fun group =>
      (group.itemsUnder "pins").flatMap pinNotices

theorem key_of_attributeNotice? {pin : String} {entry : String × Json} {warning : Warning}
    (noticed : attributeNotice? pin entry = some warning) :
    warning.attribute? = some entry.1 ∧ entry.1 ∉ structuralKeys := by
  unfold attributeNotice? at noticed
  split at noticed
  · cases noticed
  · next apart =>
      split at noticed
      · cases noticed
        exact ⟨rfl, apart⟩
      · split at noticed <;> cases noticed
        exact ⟨rfl, apart⟩

/-- No warning about an attribute names a key that places a pin. -/
theorem key_of_mem_attributeNotices {root : Json} {warning : Warning} {key : String}
    (member : warning ∈ root.attributeNotices) (names : warning.attribute? = some key) :
    key ∉ structuralKeys := by
  simp only [attributeNotices, List.mem_flatMap] at member
  obtain ⟨_, _, _, _, value, _, noticed⟩ := member
  unfold pinNotices at noticed
  split at noticed
  · split at noticed
    · obtain ⟨entry, _, isNotice⟩ := List.mem_filterMap.1 noticed
      obtain ⟨same, apart⟩ := key_of_attributeNotice? isNotice
      cases names.symm.trans same
      exact apart
    · cases noticed
  · cases noticed

end Json

theorem Pin.complaint?_eq (pin : Pin) (entry : String × Json) (apart : entry.1 ∉ structuralKeys) :
    pin.complaint? ⟨entry.1, entry.2⟩ = Json.attributeNotice? pin.name entry := by
  rw [Pin.complaint?, Attribute.setting, Json.attributeNotice?, if_neg apart]
  dsimp only
  cases Parameter.ofKey? entry.1 with
  | none => rfl
  | some parameter => cases entry.2.integerLike? <;> rfl

theorem Pin.warnings_of_decode {device : String} {kind : PinKind} {place : Location} {value : Json}
    {pin : Pin} (decoded : Pin.decode device kind place value = .ok pin) :
    pin.warnings = value.pinNotices := by
  obtain ⟨object, rfl, -, fields⟩ := (Pin.decode_eq_ok_iff ..).1 decoded
  rw [Pin.warnings, fields.attributes_eq, attributesOf, List.filterMap_map, List.filterMap_filter,
    Json.pinNotices, fields.name]
  refine List.filterMap_congr fun entry _ => ?_
  by_cases structural : entry.1 ∈ structuralKeys
  · simp [isStructural, structural, Json.attributeNotice?]
  · simpa [isStructural, structural] using pin.complaint?_eq entry structural

theorem PinGroup.warnings_of_decode {device : String} {place : Location} {value : Json}
    {group : PinGroup} (decoded : (PinGroup.decode device place value).result = .ok (some group)) :
    group.warnings = (value.itemsUnder "pins").flatMap Json.pinNotices := by
  obtain ⟨object, kindName, rfl, -, ⟨-, missing⟩ | ⟨kind, same, -, isGroup, isResult⟩⟩ :=
    (PinGroup.decode_eq_ok_iff ..).1 decoded
  · cases missing
  · cases isResult
    obtain ⟨items, found, arePins, -, -⟩ := (PinGroup.decodePins_eq_ok_iff ..).1 isGroup
    rw [Json.itemsUnder_object found, PinGroup.warnings]
    refine (flatMap_eq_of_forall₂ (arePins.unplaced.imp ?_)).symm
    rintro item pin ⟨position, isPin⟩
    exact (Pin.warnings_of_decode isPin).symm

theorem Device.warnings_of_decode {place : Location} {value : Json} {device : Device}
    (decoded : (Device.decode place value).result = .ok device) :
    device.warnings = ((value.itemsUnder "groups").filter Json.isGroupOfKind).flatMap fun group =>
      (group.itemsUnder "pins").flatMap Json.pinNotices := by
  obtain ⟨object, items, results, rfl, -, found, areGroups, kept, -⟩ :=
    (Device.decode_eq_ok_iff ..).1 decoded
  rw [Json.itemsUnder_object found, Device.warnings, kept]
  -- The groups that are left out are the items that have no known kind.
  have counted := forall₂_filterMap_id _ Json.isGroupOfKind _ _
    (fun item result given => PinGroup.isSome_decode device.name item result given.choose_spec)
    areGroups.unplaced
  refine (flatMap_eq_of_forall₂ (counted.imp ?_)).symm
  rintro item group ⟨position, isGroup⟩
  exact (PinGroup.warnings_of_decode isGroup).symm

theorem Manifest.warnings_of_decode {place : Location} {value : Json} {manifest : Manifest}
    (decoded : (Manifest.decode place value).result = .ok manifest) :
    manifest.devices.flatMap Device.warnings = value.attributeNotices := by
  obtain ⟨object, items, rfl, found, areDevices⟩ := (Manifest.decode_eq_ok_iff ..).1 decoded
  rw [Json.attributeNotices, Json.itemsUnder_object found]
  refine (flatMap_eq_of_forall₂ (areDevices.unplaced.imp ?_)).symm
  rintro item device ⟨position, isDevice⟩
  exact (Device.warnings_of_decode isDevice).symm

/-- The warnings about a signal document: that it has no name, or else that it has no blocks, or else
one for each block without a name. -/
def SignalDocument.notices (document : String) (signals : SignalDocument) : List Warning :=
  match signals.name, signals.blocks with
  | none, _ => [.signalsMissingKey document "name"]
  | some _, none => [.signalsMissingKey document "mblk"]
  | some _, some blocks =>
      List.replicate (blocks.countP fun block => block.name.isNone) (.unnamedBlock document)

theorem SignalIndex.blockWarnings_eq (document : String) (blocks : List MemoryBlock) :
    blockWarnings document blocks =
      List.replicate (blocks.countP fun block => block.name.isNone) (.unnamedBlock document) := by
  induction blocks with
  | nil => rfl
  | cons block rest ih =>
      cases named : block.name with
      | none =>
          rw [List.countP_cons_of_pos (by simp [named]), List.replicate_succ, ← ih]
          exact List.filterMap_cons_some (by simp [named])
      | some name =>
          rw [List.countP_cons_of_neg (by simp [named]), ← ih]
          exact List.filterMap_cons_none (by simp [named])

theorem SignalIndex.warnings_ofDocument {ε : Type} (document : String) (signals : SignalDocument) :
    (ofDocument document signals : Outcome ε SignalIndex).warnings = signals.notices document := by
  unfold ofDocument SignalDocument.notices
  cases signals.name with
  | none => rfl
  | some name =>
      cases signals.blocks with
      | none => rfl
      | some blocks =>
          exact (Event.warnings_map_warned _).trans (blockWarnings_eq document blocks)

theorem Outcome.warnings_bind_of_ok {ε α β : Type} (first : Outcome ε α) (next : α → Outcome ε β)
    (value : α) (success : first.result = .ok value) :
    (first >>= next).warnings = first.warnings ++ (next value).warnings := by
  rw [bind_eq_andThen, andThen_of_ok _ _ value success]
  exact Event.warnings_append _ _

namespace Build

variable {read : String → Reading}

/-- The warnings about the signals of a plan: none without a path, and else those about its
document. -/
def SignalNotices (read : String → Reading) : Option String → List Warning → Prop
  | none, warnings => warnings = []
  | some path, warnings => ∃ value signals, loadDocument path (read path) = .ok value ∧
      SignalDocument.ofJson? value = some signals ∧ warnings = signals.notices path

/-- A path leads to a document. -/
def LeadsTo (read : String → Reading) (path : String) (root : Json) : Prop :=
  loadDocument path (read path) = .ok root

theorem warnings_loadSignals {path : Option String} {signals : SignalIndex}
    (holds : HoldsSignals read path signals) :
    SignalNotices read path (loadSignals read path).warnings := by
  cases path with
  | none => rfl
  | some path =>
      obtain ⟨value, loaded, isIndex⟩ := holds
      cases laidOut : SignalDocument.ofJson? value with
      | none =>
          rw [SignalIndex.ofJson, laidOut] at isIndex
          cases isIndex
      | some document =>
          refine ⟨value, document, loaded, laidOut, ?_⟩
          have isOf : SignalIndex.ofJson path value = SignalIndex.ofDocument path document := by
            rw [SignalIndex.ofJson, laidOut]
          rw [loadSignals, Outcome.warnings_bind_of_ok _ _ value ((mapError_eq_ok_iff ..).2 loaded),
            Outcome.warnings_bind_of_ok _ _ signals
              ((Outcome.result_mapError_eq_ok_iff ..).2 isIndex), isOf,
            ← SignalIndex.warnings_ofDocument (ε := DocumentError)]
          exact List.append_nil _

theorem warnings_loadManifest {path : String} {root : Json} {manifest : Manifest}
    (leads : LeadsTo read path root)
    (decoded : (Manifest.decode (.root path) root).result = .ok manifest) :
    (loadManifest read path).warnings = root.notices := by
  rw [loadManifest, Outcome.warnings_bind_of_ok _ _ () rfl,
    Outcome.warnings_bind_of_ok _ _ root ((mapError_eq_ok_iff ..).2 leads)]
  refine (congrArg Event.warnings (Manifest.events_decode _ _ _ decoded)).trans ?_
  exact Event.warnings_map_warned root.notices

/-- The groups of all manifests are met while these are loaded. The attributes of their pins are
those of the documents, in the same order. -/
theorem warnings_loadManifests {paths : List String} {manifests : List Manifest}
    (hold : List.Forall₂ (HoldsManifest read) paths manifests) :
    ∃ roots, List.Forall₂ (LeadsTo read) paths roots ∧
      (loadManifests read paths).warnings = roots.flatMap Json.notices ∧
      (manifests.flatMap Manifest.devices).flatMap Device.warnings =
        roots.flatMap Json.attributeNotices := by
  induction hold with
  | nil => exact ⟨[], .nil, rfl, rfl⟩
  | @cons path manifest rest manifests first others ih =>
      obtain ⟨root, leads, decoded⟩ := first
      obtain ⟨roots, lead, areGroups, areAttributes⟩ := ih
      refine ⟨root :: roots, .cons leads lead, ?_, ?_⟩
      · rw [loadManifests, Outcome.warnings_bind_of_ok _ _ manifest
            ((loadManifest_eq_ok_iff ..).2 ⟨root, leads, decoded⟩),
          Outcome.warnings_bind_of_ok _ _ manifests ((loadManifests_eq_ok_iff ..).2 others),
          warnings_loadManifest leads decoded, areGroups, List.flatMap_cons]
        exact congrArg _ (List.append_nil _)
      · rw [List.flatMap_cons, List.flatMap_append, Manifest.warnings_of_decode decoded,
          areAttributes, List.flatMap_cons]

/-- What both files are made with reports: the warnings about the signals, then about the groups of
all documents, then about the attributes of their pins. -/
theorem warnings_of_compile_ok {plan : BuildPlan} {made : Compilation}
    (compiled : (compile read plan).result = .ok made) :
    ∃ signals roots, SignalNotices read plan.signals signals ∧
      List.Forall₂ (LeadsTo read) plan.manifests roots ∧
      (compile read plan).warnings =
        signals ++ roots.flatMap Json.notices ++ roots.flatMap Json.attributeNotices := by
  obtain ⟨index, manifests, loads, events⟩ := events_of_compile_ok read compiled
  obtain ⟨roots, lead, areGroups, areAttributes⟩ := warnings_loadManifests loads.manifests
  refine ⟨_, roots, warnings_loadSignals loads.signals, lead, ?_⟩
  rw [Outcome.warnings, events, Event.warnings_append, Event.warnings_append, Event.warnings_append,
    Listing.warnings_ofManifests, areAttributes, List.append_assoc, ← areGroups]
  -- The announcement is no warning.
  have announced : Event.warnings [.noted (announcement made.paths)] = [] := rfl
  rw [announced, List.append_nil]
  rfl

end Build

theorem Event.mem_warnings_iff (events : List Event) (warning : Warning) :
    warning ∈ warnings events ↔ warned warning ∈ events := by
  rw [warnings, List.mem_filterMap]
  constructor
  · rintro ⟨event, member, isWarning⟩
    cases event with
    | warned other =>
        cases isWarning
        exact member
    | noted record => cases isWarning
  · exact fun member => ⟨_, member, rfl⟩

/-- A compilation warns of attributes only while it makes the files. -/
theorem Build.mem_warnings_compile {read : String → Reading} {plan : BuildPlan} {warning : Warning}
    {key : String} (member : warning ∈ (compile read plan).warnings)
    (names : warning.attribute? = some key) :
    ∃ roots, List.Forall₂ (LeadsTo read) plan.manifests roots ∧
      warning ∈ roots.flatMap Json.attributeNotices := by
  have other {events : List Event} (loading : ∀ event ∈ events, event.IsOfLoading) :
      .warned warning ∉ events := fun isEvent => by cases names.symm.trans (loading _ isEvent)
  rw [Outcome.warnings, Event.mem_warnings_iff] at member
  cases compiled : (compile read plan).result with
  | error error => exact absurd member (other (loading_of_compile_error read compiled))
  | ok made =>
      obtain ⟨index, manifests, loads, events⟩ := events_of_compile_ok read compiled
      obtain ⟨roots, lead, -, areAttributes⟩ := warnings_loadManifests loads.manifests
      refine ⟨roots, lead, ?_⟩
      simp only [events, List.mem_append, List.mem_singleton, reduceCtorEq, or_false] at member
      rcases member with ofSignals | ofManifests | ofFiles
      · exact absurd ofSignals (other (loading_loadSignals read _))
      · exact absurd ofManifests (other (loading_loadManifests read _))
      · rw [← areAttributes, ← Listing.warnings_ofManifests made.paths.guard index,
          Event.mem_warnings_iff]
        exact ofFiles

namespace Directory

theorem warnings_build (directory : Directory) (plan : BuildPlan) :
    (directory.build plan).2.warnings = (Build.compile directory.read plan).warnings := by
  rw [Outcome.warnings, events_build, Outcome.warnings]

/-- The warnings of a build that succeeds are those about its signals, then those about the groups of
all its documents, then those about the attributes of their pins, each in the order of the documents.
However a build ends, none of its warnings names a key that places a pin, and its log has the
wordings of its warnings in their order, and no others. -/
theorem warnings_of_build (directory : Directory) (plan : BuildPlan) :
    (∀ paths, (directory.build plan).2.result = .ok paths →
      ∃ signals roots, Build.SignalNotices directory.read plan.signals signals ∧
        List.Forall₂ (Build.LeadsTo directory.read) plan.manifests roots ∧
        (directory.build plan).2.warnings =
          signals ++ roots.flatMap Json.notices ++ roots.flatMap Json.attributeNotices) ∧
    (∀ warning ∈ (directory.build plan).2.warnings, ∀ key, warning.attribute? = some key →
      key ∉ structuralKeys) ∧
    atLevel .warn (directory.build plan).2.log =
      (directory.build plan).2.warnings.map Event.warningRecord := by
  rw [warnings_build]
  refine ⟨fun paths built => ?_, fun warning member key names => ?_, ?_⟩
  · cases compiled : (Build.compile directory.read plan).result with
    | error error =>
        rw [build_of_error compiled] at built
        cases built
    | ok made => exact Build.warnings_of_compile_ok compiled
  · obtain ⟨roots, -, noticed⟩ := Build.mem_warnings_compile member names
    obtain ⟨root, -, isNotice⟩ := List.mem_flatMap.1 noticed
    exact Json.key_of_mem_attributeNotices isNotice names
  · obtain ⟨details, areDetails, events⟩ := Build.events_compile directory.read plan
    rw [Outcome.log, events_build, Outcome.warnings, events, List.map_append, Record.atLevel_append,
      Event.atLevel_warn_of_detail details areDetails, Event.warnings_append, List.map_append]
    cases (Build.compile directory.read plan).result <;> rfl

/-- A manifest with a group of no known kind and two odd attributes, and signals without a name. -/
def noticedDocuments : Directory :=
  ⟨[(["signals.json"], .file "\x7b\x7d".toUTF8),
    (["io.json"], .file "\x7b\"io\":[\x7b\"groups\":[\x7b\"name\":\"leds\"\x7d,\x7b\"name\":\"pwm\",
      \"pins\":[\x7b\"shape\":1,\"cs\":[],\"name\":\"fan\"\x7d]\x7d]\x7d]\x7d".toUTF8)]⟩

def warningsOfNoticedDocuments : List Warning :=
  [.signalsMissingKey "signals.json" "name", .unknownGroup "ioblock" "leds",
    .unknownAttribute "fan" "shape", .badValue "fan" "cs"]

theorem warnings_of_build_noticedDocuments :
    let outcome := (noticedDocuments.build ⟨["io.json"], some "signals.json", none⟩).2
    atLevel .warn outcome.log = warningsOfNoticedDocuments.map Event.warningRecord ∧
      ∃ signals roots, Build.SignalNotices noticedDocuments.read (some "signals.json") signals ∧
        List.Forall₂ (Build.LeadsTo noticedDocuments.read) ["io.json"] roots ∧
        signals ++ roots.flatMap Json.notices ++ roots.flatMap Json.attributeNotices =
          warningsOfNoticedDocuments := by
  intro outcome
  have listed : outcome.warnings = warningsOfNoticedDocuments := rfl
  obtain ⟨complete, -, logged⟩ :=
    warnings_of_build noticedDocuments ⟨["io.json"], some "signals.json", none⟩
  obtain ⟨signals, roots, ofSignals, lead, same⟩ := complete ⟨"io.c", "io.h"⟩ rfl
  exact ⟨logged.trans (congrArg (List.map _) listed), signals, roots, ofSignals, lead,
    same.symm.trans listed⟩

end Directory

end PinTable
