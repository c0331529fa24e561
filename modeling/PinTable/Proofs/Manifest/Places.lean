import PinTable.Proofs.Location
import PinTable.Proofs.Manifest.Fields

set_option autoImplicit false

namespace PinTable

def PinGroup.places (group : PinGroup) : List Location :=
  group.location :: group.pins.map Pin.location

def Device.places (device : Device) : List Location :=
  device.location :: device.groups.flatMap PinGroup.places

def Manifest.places (manifest : Manifest) : List Location :=
  manifest.devices.flatMap Device.places

/-- The places of a decoded manifest, or the one of the fault. -/
def Manifest.placesTold : Decoded Manifest → List Location
  | .ok manifest => manifest.places
  | .error fault => [fault.location]

/-- A value that is decoded is such, or the fault lies at a plain place of the document. -/
def Yields {α : Type} (document : String) (such : α → Prop) : Decoded α → Prop
  | .ok value => such value
  | .error fault => fault.location.PlainIn document

section Steps

variable {α β : Type} {document : String} {such : α → Prop} {next : β → Prop}

theorem Yields.bind {first : Decoded β} {rest : β → Decoded α} (yields : Yields document next first)
    (goesOn : ∀ value, next value → Yields document such (rest value)) :
    Yields document such (first >>= rest) := by
  cases first with
  | ok value => exact goesOn value yields
  | error fault => exact yields

theorem yields_forEachAt (step : Nat → Json → Decoded α)
    (each : ∀ position item, Yields document such (step position item)) (position : Nat)
    (items : List Json) :
    Yields document (fun results => ∀ result ∈ results, such result)
      (forEachAt step position items) := by
  induction items generalizing position with
  | nil => exact List.forall_mem_nil _
  | cons item rest ih =>
      refine (each position item).bind fun first isFirst => ?_
      refine (ih (position + 1)).bind fun others areOthers => ?_
      exact List.forall_mem_cons.2 ⟨isFirst, areOthers⟩

/-- Of a value on which nothing is asked, only the fault matters. -/
theorem yields_of_error {result : Decoded α}
    (plain : ∀ fault, result = .error fault → fault.location.PlainIn document) :
    Yields document (fun _ => True) result := by
  cases result with
  | ok value => trivial
  | error fault => exact plain fault rfl

end Steps

section Fields

variable {document : String} {place : Location} (plain : place.PlainIn document)

include plain

theorem yields_expectObject (value : Json) :
    Yields document (fun _ => True) (value.expectObject place) := by
  refine yields_of_error fun fault failed => ?_
  obtain ⟨_, rfl⟩ := (Json.expectObject_eq_error_iff ..).1 failed
  exact plain

theorem yields_expectArray (value : Json) :
    Yields document (fun _ => True) (value.expectArray place) := by
  refine yields_of_error fun fault failed => ?_
  obtain ⟨_, rfl⟩ := (Json.expectArray_eq_error_iff ..).1 failed
  exact plain

variable (object : Entries Json) {key : String}

theorem yields_requireField (missing : DecodeCause) :
    Yields document (fun _ => True) (requireField object key place missing) := by
  refine yields_of_error fun fault failed => ?_
  obtain ⟨_, rfl⟩ := (requireField_eq_error_iff ..).1 failed
  exact plain

variable (plainKey : (Step.key key).Plain)

include plainKey

theorem yields_stringField? :
    Yields document (fun _ => True) (stringField? object key place) := by
  refine yields_of_error fun fault failed => ?_
  obtain ⟨_, _, _, rfl⟩ := (stringField?_eq_error_iff ..).1 failed
  exact plain.key plainKey

theorem yields_integerField? :
    Yields document (fun _ => True) (integerField? object key place) := by
  refine yields_of_error fun fault failed => ?_
  obtain ⟨_, _, ⟨_, rfl⟩ | ⟨_, _, _, _, _, rfl⟩⟩ := (integerField?_eq_error_iff ..).1 failed
  · exact plain.key plainKey
  · exact plain.key plainKey

theorem yields_requireString (missing : DecodeCause) :
    Yields document (fun _ => True) (requireString object key place missing) := by
  refine yields_of_error fun fault failed => ?_
  obtain ⟨_, rfl⟩ | ⟨_, _, _, rfl⟩ := (requireString_eq_error_iff ..).1 failed
  · exact plain
  · exact plain.key plainKey

end Fields

section Levels

variable {document : String} {place : Location} (plain : place.PlainIn document)

include plain

/-- The items of an array under a key lie at plain places if the key is plain. -/
theorem Location.PlainIn.item {key : String} (plainKey : (Step.key key).Plain) (position : Nat) :
    ((place.key key).index position).PlainIn document :=
  (plain.key plainKey).index position

theorem Pin.yields_decode (device : String) (kind : PinKind) (value : Json) :
    Yields document (fun pin => pin.location.PlainIn document)
      (Pin.decode device kind place value) := by
  refine (yields_expectObject plain value).bind fun object _ => ?_
  refine (yields_requireString plain object (by decide) _).bind fun name _ => ?_
  refine (yields_stringField? plain object (by decide)).bind fun tag _ => ?_
  refine (yields_stringField? plain object (by decide)).bind fun driver _ => ?_
  refine (yields_stringField? plain object (by decide)).bind fun chip _ => ?_
  refine (yields_integerField? plain object (by decide)).bind fun bank _ => ?_
  refine (yields_integerField? plain object (by decide)).bind fun addr _ => ?_
  exact plain

theorem PinGroup.yields_decodePins (device : String) (kind : PinKind) (object : Entries Json) :
    Yields document (fun group => ∀ told ∈ group.places, told.PlainIn document)
      (PinGroup.decodePins device kind place object) := by
  refine (yields_requireField plain object _).bind fun pins _ => ?_
  refine (yields_expectArray (plain.key (by decide)) pins).bind fun items _ => ?_
  refine (yields_forEachAt _ (fun position item => Pin.yields_decode
    (plain.item (by decide) position) device kind item) 0 items).bind fun decoded each => ?_
  exact List.forall_mem_cons.2 ⟨plain, List.forall_mem_map.2 each⟩

theorem PinGroup.yields_decode (device : String) (value : Json) :
    Yields document
      (fun result => ∀ group, result = some group → ∀ told ∈ group.places, told.PlainIn document)
      (PinGroup.decode device place value).result := by
  simp only [PinGroup.decode, Outcome.result_bind, Outcome.result_ofExcept]
  refine (yields_expectObject plain value).bind fun object _ => ?_
  refine (yields_requireString plain object (by decide) _).bind fun kindName _ => ?_
  cases PinKind.ofName? kindName with
  | none => exact fun _ missing => by cases missing
  | some kind =>
      simp only [Outcome.result_bind, Outcome.result_ofExcept, Outcome.result_pure]
      refine (PinGroup.yields_decodePins plain device kind object).bind fun group each => ?_
      intro known same
      cases same
      exact each

theorem Device.yields_decode (value : Json) :
    Yields document (fun device => ∀ told ∈ device.places, told.PlainIn document)
      (Device.decode place value).result := by
  simp only [Device.decode, Outcome.result_bind, Outcome.result_ofExcept, Outcome.result_pure,
    result_forEachAt]
  refine (yields_expectObject plain value).bind fun object _ => ?_
  refine (yields_stringField? plain object (by decide)).bind fun name _ => ?_
  refine (yields_stringField? plain object (by decide)).bind fun base _ => ?_
  refine (yields_requireField plain object _).bind fun groups _ => ?_
  refine (yields_expectArray (plain.key (by decide)) groups).bind fun items _ => ?_
  refine (yields_forEachAt _ (fun position item => PinGroup.yields_decode
    (plain.item (by decide) position) _ item) 0 items).bind fun decoded each => ?_
  refine List.forall_mem_cons.2 ⟨plain, fun told member => ?_⟩
  obtain ⟨group, isGroup, here⟩ := List.mem_flatMap.1 member
  obtain ⟨result, isResult, known⟩ := List.mem_filterMap.1 isGroup
  exact each result isResult group known told here

theorem Manifest.yields_decode (value : Json) :
    Yields document (fun manifest => ∀ told ∈ manifest.places, told.PlainIn document)
      (Manifest.decode place value).result := by
  simp only [Manifest.decode, Outcome.result_bind, Outcome.result_ofExcept, Outcome.result_pure,
    result_forEachAt]
  refine (yields_expectObject plain value).bind fun object _ => ?_
  refine (yields_requireField plain object _).bind fun devices _ => ?_
  refine (yields_expectArray (plain.key (by decide)) devices).bind fun items _ => ?_
  refine (yields_forEachAt _ (fun position item => Device.yields_decode
    (plain.item (by decide) position) item) 0 items).bind fun decoded each => ?_
  intro told member
  obtain ⟨device, isDevice, here⟩ := List.mem_flatMap.1 member
  exact each device isDevice told here

end Levels

theorem Manifest.plainIn_of_told (document : String) (value : Json) (place : Location)
    (told : place ∈ Manifest.placesTold (Manifest.decode (.root document) value).result) :
    place.PlainIn document := by
  have yields := Manifest.yields_decode (.root document) value
  cases decoded : (Manifest.decode (.root document) value).result with
  | ok manifest =>
      rw [decoded] at yields told
      exact yields place told
  | error fault =>
      rw [decoded] at yields told
      rw [List.mem_singleton.1 told]
      exact yields

/-- Places that plain steps lead to from the root of a document have the same text just if the steps
are the same, and such steps lead to every place that the decoding of a value tells. -/
theorem location_texts_distinct (document : String) :
    (∀ first second : List Step, (∀ step ∈ first, step.Plain) → (∀ step ∈ second, step.Plain) →
      (((Location.root document).descend first).text =
        ((Location.root document).descend second).text ↔ first = second)) ∧
    ∀ value : Json, ∀ place ∈ Manifest.placesTold (Manifest.decode (.root document) value).result,
      place.PlainIn document := by
  refine ⟨fun first second plain alsoPlain => ⟨?_, ?_⟩, Manifest.plainIn_of_told document⟩
  · exact Location.steps_eq_of_text_eq document plain alsoPlain
  · rintro rfl
    rfl

/-- The steps to a group of a device. -/
def groupSteps (device group : Nat) : List Step :=
  [.key "io", .index device, .key "groups", .index group]

/-- A document whose second device has a number in place of its name. -/
def documentOfNumberedDevice : Json :=
  .object [("io", .array [.object [("groups", .array [])],
    .object [("name", .number (.integer 7 (by decide) (by decide)))]])]

def placeOfNumber : Location := (((Location.root "io.json").key "io").index 1).key "name"

theorem location_texts_distinct_documentOfNumberedDevice :
    (∀ step ∈ groupSteps 1 12, step.Plain) ∧ (∀ step ∈ groupSteps 11 2, step.Plain) ∧
    ((Location.root "io.json").descend (groupSteps 1 12)).text ≠
      ((Location.root "io.json").descend (groupSteps 11 2)).text ∧
    (Manifest.decode (.root "io.json") documentOfNumberedDevice).result =
      .error ⟨.typeMismatch .string .integer, placeOfNumber⟩ ∧
    placeOfNumber.PlainIn "io.json" := by
  have plain : ∀ step ∈ groupSteps 1 12, step.Plain := by decide
  have alsoPlain : ∀ step ∈ groupSteps 11 2, step.Plain := by decide
  have failed : (Manifest.decode (.root "io.json") documentOfNumberedDevice).result =
      .error ⟨.typeMismatch .string .integer, placeOfNumber⟩ := by
    rfl
  obtain ⟨distinct, told⟩ := location_texts_distinct "io.json"
  refine ⟨plain, alsoPlain, ?_, failed, ?_⟩
  · rw [ne_eq, distinct _ _ plain alsoPlain]
    decide
  · apply told documentOfNumberedDevice
    rw [failed]
    exact List.mem_singleton_self _

end PinTable
