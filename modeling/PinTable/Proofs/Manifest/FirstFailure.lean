import PinTable.Proofs.Manifest.Grammar
import PinTable.Proofs.Manifest.Notices

set_option autoImplicit false

namespace PinTable

open Entries (find?)
open Json (IsObjectOf)

/-- The arrays that steps lead through: the key of each, and the position taken in it. -/
def Step.turns : List Step → List (String × Nat)
  | .key name :: .index position :: rest => (name, position) :: turns rest
  | _ => []

/-- The arrays on the way to a place: for a fault in a pin, its device, its group and itself. -/
def Location.turns (place : Location) : List (String × Nat) := Step.turns place.steps

/-- The fields that the grammar asks for in the items of the array under a key. -/
def fieldsUnder (key : String) : Entries Json → Prop :=
  if key = "io" then DeviceFields else if key = "groups" then GroupFields else PinFields

/-- On the way through arrays, each item in front of the one taken is of the grammar, and the one
taken is not. -/
def FitsBefore : List (String × Nat) → Json → Prop
  | [], _ => True
  | (key, position) :: inner, value =>
      ∃ item, (value.itemsUnder key)[position]? = some item ∧
        (∀ earlier ∈ (value.itemsUnder key).take position, IsObjectOf (fieldsUnder key) earlier) ∧
        ¬ IsObjectOf (fieldsUnder key) item ∧ FitsBefore inner item

/-- Values that differ only behind the items on a way through arrays. The items in front of the one
taken are the same, the others behind it may be any, in any number. -/
inductive SameUpTo : List (String × Nat) → Json → Json → Prop
  | here (value : Json) : SameUpTo [] value value
  | array {key : String} {position : Nat} {inner : List (String × Nat)} {object other : Entries Json}
      {front back rest : List Json} {item changed : Json}
      (found : find? key object = some (.array (front ++ item :: back)))
      (others : find? key other = some (.array (front ++ changed :: rest)))
      (length : front.length = position)
      (elsewhere : ∀ name, name ≠ key → find? name other = find? name object)
      (alike : SameUpTo inner item changed) :
      SameUpTo ((key, position) :: inner) (.object object) (.object other)

namespace Json

/-- The warnings about the items of an array on a way: those about the whole items in front of the
one taken, and those about the part of that item that the way leads through. -/
def noticesUnder (key : String) (whole : Json → List Warning)
    (part : Json → List (String × Nat) → List Warning) (value : Json) :
    List (String × Nat) → List Warning
  | [] => []
  | (_, position) :: inner =>
      ((value.itemsUnder key).take position).flatMap whole ++
        ((value.itemsUnder key)[position]?).toList.flatMap fun item => part item inner

/-- The warnings about the groups of a device in front of the one on a way. -/
def deviceNoticesBefore (device : Json) : List (String × Nat) → List Warning :=
  device.noticesUnder "groups" (fun group => (group.groupNotice? device.deviceName).toList)
    fun _ _ => []

/-- The warnings about all groups in front of a place on a way. -/
def noticesBefore (root : Json) : List (String × Nat) → List Warning :=
  root.noticesUnder "io" deviceNotices deviceNoticesBefore

end Json

/-- The fault is about the value at a place, or about a field of it. -/
def AtPlace (place : Location) (fault : DecodeFault) : Prop :=
  ∃ rest, fault.location.steps = place.steps ++ rest ∧ Step.turns rest = []

namespace AtPlace

variable (place : Location) (cause : DecodeCause)

theorem here : AtPlace place ⟨cause, place⟩ := ⟨[], (List.append_nil _).symm, rfl⟩

theorem field (key : String) : AtPlace place ⟨cause, place.key key⟩ := ⟨[.key key], rfl, rfl⟩

variable {place} {fault : DecodeFault}

theorem of_expectObject {value : Json} (failed : value.expectObject place = .error fault) :
    AtPlace place fault := by
  obtain ⟨_, rfl⟩ := (Json.expectObject_eq_error_iff ..).1 failed
  exact here ..

theorem of_stringField? {object : Entries Json} {key : String}
    (failed : stringField? object key place = .error fault) : AtPlace place fault := by
  obtain ⟨_, _, _, rfl⟩ := (stringField?_eq_error_iff ..).1 failed
  exact field ..

theorem of_integerField? {object : Entries Json} {key : String}
    (failed : integerField? object key place = .error fault) : AtPlace place fault := by
  obtain ⟨_, _, ⟨_, rfl⟩ | ⟨_, _, _, _, _, rfl⟩⟩ := (integerField?_eq_error_iff ..).1 failed
  · exact field ..
  · exact field ..

theorem of_requireField {object : Entries Json} {key : String} {missing : DecodeCause}
    (failed : requireField object key place missing = .error fault) : AtPlace place fault := by
  obtain ⟨_, rfl⟩ := (requireField_eq_error_iff ..).1 failed
  exact here ..

theorem of_requireString {object : Entries Json} {key : String} {missing : DecodeCause}
    (failed : requireString object key place missing = .error fault) : AtPlace place fault := by
  obtain ⟨_, rfl⟩ | ⟨_, _, _, rfl⟩ := (requireString_eq_error_iff ..).1 failed
  · exact here ..
  · exact field ..

end AtPlace

theorem Pin.atPlace_decode (device : String) (kind : PinKind) (place : Location) (value : Json)
    (fault : DecodeFault) (failed : Pin.decode device kind place value = .error fault) :
    AtPlace place fault := by
  simp only [Pin.decode, bind_eq_error_iff, pure_ne_error, and_false, exists_false,
    or_false] at failed
  rcases failed with failed | ⟨_, _, failed | ⟨_, _, failed | ⟨_, _, failed | ⟨_, _, failed |
    ⟨_, _, failed | ⟨_, _, failed⟩⟩⟩⟩⟩⟩
  · exact .of_expectObject failed
  · exact .of_requireString failed
  · exact .of_stringField? failed
  · exact .of_stringField? failed
  · exact .of_stringField? failed
  · exact .of_integerField? failed
  · exact .of_integerField? failed

/-- What is known of a decoding that failed on a way through arrays. The arrays lie under keys of the
levels below, the input is such up to the fault, and no change behind it is seen. -/
structure Decided {ι α : Type} (json : ι → Json) (keys : List String) (decode : ι → Decoding α)
    (notices : List (String × Nat) → List Warning) (input : ι) (turns : List (String × Nat)) :
    Prop where
  under : turns.map Prod.fst <+: keys
  fits : FitsBefore turns (json input)
  events : (decode input).events = (notices turns).map .warned
  same : ∀ other, SameUpTo turns (json input) (json other) → decode other = decode input

/-- The fault of a failed decoding lies at a place or on a way from it that decides the fault. -/
def DecidedAt {ι α : Type} (json : ι → Json) (keys : List String) (decode : ι → Decoding α)
    (notices : List (String × Nat) → List Warning) (input : ι) (place : Location)
    (fault : DecodeFault) : Prop :=
  ∃ rest, fault.location.steps = place.steps ++ rest ∧
    Decided json keys decode notices input (Step.turns rest)

namespace SameUpTo

theorem eq_of_nil {value other : Json} (same : SameUpTo [] value other) : other = value := by
  cases same
  rfl

variable {key : String} {object other : Entries Json} {inner : List (String × Nat)}

theorem exists_object {position : Nat} {value : Json}
    (same : SameUpTo ((key, position) :: inner) (.object object) value) :
    ∃ other, value = .object other := by
  cases same with
  | array => exact ⟨_, rfl⟩

theorem elsewhere {position : Nat}
    (same : SameUpTo ((key, position) :: inner) (.object object) (.object other)) (name : String)
    (different : name ≠ key) : find? name other = find? name object := by
  cases same with
  | array _ _ _ elsewhere _ => exact elsewhere name different

/-- The array of the other object has the items of the first up to the position. -/
theorem array_front {front back : List Json} {item : Json}
    (found : find? key object = some (.array (front ++ item :: back)))
    (same : SameUpTo ((key, front.length) :: inner) (.object object) (.object other)) :
    ∃ changed rest, find? key other = some (.array (front ++ changed :: rest)) ∧
      SameUpTo inner item changed := by
  cases same with
  | array known others length _ alike =>
      have split := Json.array.inj (Option.some.inj (found.symm.trans known))
      obtain ⟨rfl, same⟩ := List.append_inj split length.symm
      obtain ⟨rfl, rfl⟩ := List.cons.inj same
      exact ⟨_, _, others, alike⟩

end SameUpTo

/-- A fault about a value or its fields is decided by the value. -/
theorem AtPlace.decidedAt {ι α : Type} {json : ι → Json} {keys : List String}
    {decode : ι → Decoding α} {notices : List (String × Nat) → List Warning} {input : ι}
    {place : Location} {fault : DecodeFault} (near : AtPlace place fault)
    (injective : ∀ other, json other = json input → other = input)
    (silent : (decode input).events = []) (none : notices [] = []) :
    DecidedAt json keys decode notices input place fault := by
  obtain ⟨rest, steps, turns⟩ := near
  refine ⟨rest, steps, ?_⟩
  rw [turns]
  constructor
  case under => exact List.nil_prefix
  case fits => trivial
  case events =>
    rw [silent, none]
    rfl
  case same =>
    intro other same
    rw [injective other same.eq_of_nil]

section Array

variable {β : Type} (key : String) (missing : DecodeCause) (step : Location → Json → Decoding β)
  (place : Location) (object : Entries Json) (fault : DecodeFault)

/-- Either there is no array of items, or an item of it fails whose front does not. -/
theorem decodeItems_eq_error
    (failed : (decodeItems key missing step place object).result = .error fault) :
    (AtPlace place fault ∧ (decodeItems key missing step place object).events = []) ∨
      ∃ front item back results, find? key object = some (.array (front ++ item :: back)) ∧
        EachGives (fun position item => (step ((place.key key).index position) item).result) 0 front
          results ∧
        (step ((place.key key).index front.length) item).result = .error fault := by
  cases isField : requireField object key place missing with
  | error reason =>
      simp only [decodeItems, isField, Outcome.ofExcept_error_bind] at failed ⊢
      cases failed
      exact Or.inl ⟨.of_requireField isField, rfl⟩
  | ok field =>
      cases areItems : field.expectArray (place.key key) with
      | error reason =>
          simp only [decodeItems, isField, Outcome.ofExcept_ok_bind, areItems,
            Outcome.ofExcept_error_bind] at failed ⊢
          cases failed
          obtain ⟨_, rfl⟩ := (Json.expectArray_eq_error_iff ..).1 areItems
          exact Or.inl ⟨.field .., rfl⟩
      | ok items =>
          obtain rfl := (Json.expectArray_eq_ok_iff ..).1 areItems
          have found := (requireField_eq_ok_iff ..).1 isField
          rw [decodeItems_array _ _ _ _ _ items found, result_forEachAt,
            forEachAt_eq_error_iff] at failed
          obtain ⟨front, item, back, results, rfl, before, culprit⟩ := failed
          rw [Nat.zero_add] at culprit
          exact Or.inr ⟨front, item, back, results, found, before, culprit⟩

/-- What decides a fault in an item of an array decides it in the array. -/
theorem decodeItems_decidedAt (deeper : List String) (whole : Json → List Warning)
    (part : Json → List (String × Nat) → List Warning)
    (accepts : ∀ place item,
      (∃ result, (step place item).result = .ok result) ↔ IsObjectOf (fieldsUnder key) item)
    (noticed : ∀ place item result, (step place item).result = .ok result →
      (step place item).events = (whole item).map .warned)
    (decided : ∀ place item, (step place item).result = .error fault →
      DecidedAt id deeper (step place) (part item) item place fault)
    (failed : (decodeItems key missing step place object).result = .error fault) :
    DecidedAt Json.object (key :: deeper) (decodeItems key missing step place)
      (Json.noticesUnder key whole part (.object object)) object place fault := by
  rcases decodeItems_eq_error key missing step place object fault failed with
    ⟨near, silent⟩ | ⟨front, item, back, results, found, before, culprit⟩
  · exact near.decidedAt (fun other same => Json.object.inj same) silent rfl
  obtain ⟨rest, steps, inside⟩ := decided _ item culprit
  refine ⟨.key key :: .index front.length :: rest, ?_, ?_⟩
  · rw [steps]
    show place.steps ++ [.key key] ++ [.index front.length] ++ rest = _
    simp only [List.append_assoc, List.cons_append, List.nil_append]
  have items := Json.itemsUnder_object found
  have taken : (front ++ item :: back).take front.length = front := List.take_left' rfl
  have there : (front ++ item :: back)[front.length]? = some item := by simp
  -- The outcome is told by the front and the item, whatever comes behind.
  let stepAt (position : Nat) (item : Json) := step ((place.key key).index position) item
  have stops : ∀ next back, stepAt front.length next = stepAt front.length item →
      forEachAt stepAt 0 (front ++ next :: back) =
        ⟨(forEachAt stepAt 0 front).events ++ (stepAt front.length item).events, .error fault⟩ := by
    intro next back unchanged
    have stopped := forEachAt_stops stepAt 0 front next back results fault before
    rw [Nat.zero_add, unchanged] at stopped
    exact stopped culprit
  constructor
  case under => exact (List.prefix_cons_inj key).2 inside.under
  case fits =>
    refine ⟨item, ?_, ?_, ?_, inside.fits⟩
    · rw [items, there]
    · rw [items, taken]
      exact (exists_eachGives_iff _ 0 front _ fun item _ position => accepts _ item).1
        ⟨results, before⟩
    · rw [← accepts ((place.key key).index front.length)]
      rintro ⟨result, given⟩
      rw [culprit] at given
      cases given
  case events =>
    rw [decodeItems_array _ _ _ _ _ _ found, stops item back rfl,
      events_forEachAt stepAt (fun item => (whole item).map .warned) 0 front results before
        fun item _ position result given => noticed _ item result given]
    show _ ++ (step ((place.key key).index front.length) item).events = _
    rw [inside.events]
    simp only [Step.turns, Json.noticesUnder, items, taken, there, List.map_append,
      List.map_flatMap, Option.toList_some, List.flatMap_singleton]
  case same =>
    intro other same
    obtain ⟨changed, rest, others, alike⟩ := same.array_front found
    rw [decodeItems_array _ _ _ _ _ _ found, decodeItems_array _ _ _ _ _ _ others]
    exact (stops changed rest (inside.same changed alike)).trans (stops item back rfl).symm

end Array

theorem Json.noticesUnder_silent (key : String) (value : Json) :
    value.noticesUnder key (fun _ => []) (fun _ _ => []) = fun _ => [] := by
  funext turns
  cases turns with
  | nil => rfl
  | cons turn inner => simp [noticesUnder]

/-- What decides a fault in the array of an object decides it in the object, if whatever else is
decoded of the object does not fail and hangs on the fields outside the array. -/
theorem DecidedAt.of_object {α β : Type} {key : String} {deeper : List String}
    {items : Entries Json → Decoding β} {decode : Json → Decoding α}
    {notices : List (String × Nat) → List Warning} {object : Entries Json} {place : Location}
    {fault : DecodeFault}
    (decided : DecidedAt Json.object (key :: deeper) items notices object place fault)
    (events : (decode (.object object)).events = (items object).events)
    (follows : ∀ other, (∀ name, name ≠ key → find? name other = find? name object) →
      items other = items object → decode (.object other) = decode (.object object)) :
    DecidedAt id (key :: deeper) decode notices (.object object) place fault := by
  obtain ⟨rest, steps, inside⟩ := decided
  refine ⟨rest, steps, inside.under, inside.fits, events.trans inside.events, ?_⟩
  have under := inside.under
  have unseen := inside.same
  intro value same
  cases turns : Step.turns rest with
  | nil =>
      rw [turns] at same
      exact congrArg decode same.eq_of_nil
  | cons turn inner =>
      rw [turns] at same under unseen
      obtain ⟨name, position⟩ := turn
      obtain ⟨rfl, _⟩ := List.cons_prefix_cons.1 under
      obtain ⟨other, rfl⟩ := same.exists_object
      exact follows other same.elsewhere (unseen other same)

section Levels

variable (place : Location) (value : Json) (fault : DecodeFault)

theorem PinGroup.decidedAt_decodePin (device : String) (kind : PinKind)
    (failed : (PinGroup.decodePin device kind place value).result = .error fault) :
    DecidedAt id [] (PinGroup.decodePin device kind place) (fun _ => []) value place fault :=
  (Pin.atPlace_decode device kind place value fault failed).decidedAt (fun _ same => same) rfl rfl

theorem PinGroup.decidedAt_decode (device : String)
    (failed : (PinGroup.decode device place value).result = .error fault) :
    DecidedAt id ["pins"] (PinGroup.decode device place) (fun _ => []) value place fault := by
  have near (atPlace : AtPlace place fault)
      (silent : (PinGroup.decode device place value).events = []) :
      DecidedAt id ["pins"] (PinGroup.decode device place) (fun _ => []) value place fault :=
    atPlace.decidedAt (fun _ same => same) silent rfl
  cases isObject : value.expectObject place with
  | error reason =>
      simp only [PinGroup.decode, isObject, Outcome.ofExcept_error_bind] at failed near
      cases failed
      exact near (.of_expectObject isObject) rfl
  | ok object =>
  obtain rfl := (Json.expectObject_eq_ok_iff ..).1 isObject
  cases named : requireString object "name" place (.missingGroupName device) with
  | error reason =>
      rw [PinGroup.decode_unnamed device place object reason named] at failed near
      cases failed
      exact near (.of_requireString named) rfl
  | ok kindName =>
  have found := (requireString_eq_ok_iff ..).1 named
  cases known : PinKind.ofName? kindName with
  | none =>
      rw [PinGroup.decode_unknown device place object kindName found known] at failed
      cases failed
  | some kind =>
      obtain rfl := PinKind.name_of_ofName? kindName kind known
      rw [PinGroup.decode_known device place object kind found,
        Outcome.result_bind_pure_eq_error_iff] at failed
      have accepts : ∀ place item,
          (∃ result, (PinGroup.decodePin device kind place item).result = .ok result) ↔
            IsObjectOf (fieldsUnder "pins") item := Pin.exists_decode_iff device kind
      have decided := decodeItems_decidedAt "pins" _ _ place object fault [] (fun _ => [])
        (fun _ _ => []) accepts (fun _ _ _ _ => rfl)
        (fun place item => PinGroup.decidedAt_decodePin place item fault device kind) failed
      rw [Json.noticesUnder_silent] at decided
      apply decided.of_object
      · rw [PinGroup.decode_known device place object kind found, Outcome.events_bind_pure]
      · intro other elsewhere same
        have foundOther := (elsewhere "name" (by decide)).trans found
        rw [PinGroup.decode_known device place object kind found,
          PinGroup.decode_known device place other kind foundOther, same]

theorem Device.decidedAt_decode (failed : (Device.decode place value).result = .error fault) :
    DecidedAt id ["groups", "pins"] (Device.decode place) value.deviceNoticesBefore value place
      fault := by
  have near (atPlace : AtPlace place fault) (silent : (Device.decode place value).events = []) :
      DecidedAt id ["groups", "pins"] (Device.decode place) value.deviceNoticesBefore value place
        fault :=
    atPlace.decidedAt (fun _ same => same) silent rfl
  cases isObject : value.expectObject place with
  | error reason =>
      simp only [Device.decode, isObject, Outcome.ofExcept_error_bind] at failed near
      cases failed
      exact near (.of_expectObject isObject) rfl
  | ok object =>
  obtain rfl := (Json.expectObject_eq_ok_iff ..).1 isObject
  cases isName : stringField? object "name" place with
  | error reason =>
      simp only [Device.decode_object, isName, Outcome.ofExcept_error_bind] at failed near
      cases failed
      exact near (.of_stringField? isName) rfl
  | ok name =>
  cases isBase : stringField? object "prefix" place with
  | error reason =>
      simp only [Device.decode_object, isName, isBase, Outcome.ofExcept_ok_bind,
        Outcome.ofExcept_error_bind] at failed near
      cases failed
      exact near (.of_stringField? isBase) rfl
  | ok base =>
  have named : (Json.object object).deviceName = name.getD Device.defaultName :=
    Json.deviceName_object
      ((fieldOr?_eq_some_iff ..).2 ⟨name, (stringField?_eq_ok_iff ..).1 isName, rfl⟩)
  -- An object with the same names goes on with its own array of groups.
  have goesOn (other : Entries Json)
      (elsewhere : ∀ name, name ≠ "groups" → find? name other = find? name object) :
      Device.decode place (.object other) = (do
        let name := name.getD Device.defaultName
        let groups ← decodeItems "groups" (.missingGroups name) (PinGroup.decode name) place other
        return ⟨name, base.getD Device.defaultBase, groups.filterMap id, place⟩) := by
    rw [Device.decode_object, stringField?_congr place (elsewhere "name" (by decide)), isName,
      Outcome.ofExcept_ok_bind, stringField?_congr place (elsewhere "prefix" (by decide)), isBase,
      Outcome.ofExcept_ok_bind]
  have here := goesOn object fun _ _ => rfl
  rw [here, Outcome.result_bind_pure_eq_error_iff] at failed
  have accepts : ∀ place item,
      (∃ group, (PinGroup.decode (name.getD Device.defaultName) place item).result = .ok group) ↔
        IsObjectOf (fieldsUnder "groups") item := PinGroup.exists_decode_iff _
  have decided := decodeItems_decidedAt "groups" _ _ place object fault ["pins"]
    (fun group => (group.groupNotice? (name.getD Device.defaultName)).toList) (fun _ _ => []) accepts
    (fun place item _ _ => PinGroup.events_decode _ place item)
    (fun place item => PinGroup.decidedAt_decode place item fault _) failed
  rw [← named] at decided
  apply decided.of_object
  · rw [here, Outcome.events_bind_pure, named]
  · intro other elsewhere same
    rw [named] at same
    rw [here, goesOn other elsewhere]
    exact congrArg (· >>= _) same

theorem Manifest.decidedAt_decode (failed : (Manifest.decode place value).result = .error fault) :
    DecidedAt id ["io", "groups", "pins"] (Manifest.decode place) value.noticesBefore value place
      fault := by
  cases isObject : value.expectObject place with
  | error reason =>
      have silent : Manifest.decode place value = .fail reason := by
        simp only [Manifest.decode, isObject, Outcome.ofExcept_error_bind]
      rw [silent] at failed
      cases failed
      exact (AtPlace.of_expectObject isObject).decidedAt (fun _ same => same)
        (congrArg Outcome.events silent) rfl
  | ok object =>
      obtain rfl := (Json.expectObject_eq_ok_iff ..).1 isObject
      rw [Manifest.decode_object, Outcome.result_bind_pure_eq_error_iff] at failed
      have decided := decodeItems_decidedAt "io" _ _ place object fault ["groups", "pins"]
        Json.deviceNotices Json.deviceNoticesBefore Device.exists_decode_iff Device.events_decode
        (fun place item => Device.decidedAt_decode place item fault) failed
      apply decided.of_object
      · rw [Manifest.decode_object, Outcome.events_bind_pure]
      · intro other _ same
        rw [Manifest.decode_object, Manifest.decode_object, same]

end Levels

/-- The first fault of a document is decided by what comes up to it: what stands in front of it in
the arrays on its way is of the grammar, the warnings are about the groups in front of it, and in a
document that differs only behind it the fault and the warnings are the same. -/
theorem first_fault_decides (document : String) (root : Json) (fault : DecodeFault)
    (failed : (Manifest.decode (.root document) root).result = .error fault) :
    fault.location.turns.map Prod.fst <+: ["io", "groups", "pins"] ∧
    FitsBefore fault.location.turns root ∧
    (Manifest.decode (.root document) root).warnings = root.noticesBefore fault.location.turns ∧
    ∀ other, SameUpTo fault.location.turns root other →
      (Manifest.decode (.root document) other).result = .error fault ∧
      (Manifest.decode (.root document) other).warnings =
        root.noticesBefore fault.location.turns := by
  obtain ⟨rest, steps, decided⟩ := Manifest.decidedAt_decode _ root fault failed
  have turns : fault.location.turns = Step.turns rest := congrArg Step.turns steps
  rw [turns]
  have warned : (Manifest.decode (.root document) root).warnings =
      root.noticesBefore (Step.turns rest) := by
    rw [Outcome.warnings, decided.events, Event.warnings_map_warned]
  refine ⟨decided.under, decided.fits, warned, ?_⟩
  intro other same
  rw [decided.same other same]
  exact ⟨failed, warned⟩

def groupOfKind (kind : String) (fields : Entries Json) : Json :=
  .object (("name", .string kind) :: fields)

/-- A device whose second group has a pin without name in its second place. -/
def deviceOfNamelessPin (pins groups : List Json) : Json :=
  .object [("groups", .array ([groupOfKind "relays" []] ++ groupOfKind "inputs" [("pins",
    .array ([.object [("name", .string "door")]] ++ .object [("touch", .bool true)] :: pins))] ::
      groups))]

/-- A document that fails in its second device, with whatever comes behind in its arrays. -/
def documentOfLateFault (pins groups devices : List Json) : Json :=
  .object [("io", .array ([.object [("name", .string "board"),
    ("groups", .array [groupOfKind "leds" []])]] ++ deviceOfNamelessPin pins groups :: devices))]

def lateFault : DecodeFault :=
  let group := ((((Location.root "io.json").key "io").index 1).key "groups").index 1
  ⟨.missingPinName "ioblock" .inputs, (group.key "pins").index 1⟩

theorem sameUpTo_documentOfLateFault (pins groups devices : List Json) :
    SameUpTo [("io", 1), ("groups", 1), ("pins", 1)] (documentOfLateFault [] [] [])
      (documentOfLateFault pins groups devices) := by
  refine .array rfl rfl rfl ?_ (.array rfl rfl rfl ?_ (.array rfl rfl rfl ?_ (.here _)))
  all_goals
    intro name different
    simp [Entries.find?_cons, different.symm]

theorem first_fault_decides_documentOfLateFault :
    (Manifest.decode (.root "io.json") (documentOfLateFault [] [] [])).result = .error lateFault ∧
    FitsBefore [("io", 1), ("groups", 1), ("pins", 1)] (documentOfLateFault [] [] []) ∧
    (Manifest.decode (.root "io.json") (documentOfLateFault [] [] [])).warnings =
      [.unknownGroup "board" "leds", .unknownGroup "ioblock" "relays"] ∧
    (Manifest.decode (.root "io.json")
      (documentOfLateFault [.null] [.bool true, groupOfKind "fans" []] [.string "spare"])).result =
        .error lateFault := by
  have failed : (Manifest.decode (.root "io.json") (documentOfLateFault [] [] [])).result =
      .error lateFault := by
    rfl
  obtain ⟨_, fits, warned, behind⟩ := first_fault_decides _ _ _ failed
  exact ⟨failed, fits, warned.trans (by rfl), (behind _ (sameUpTo_documentOfLateFault ..)).1⟩

end PinTable
