import PinTable.Proofs.Json.Place
import PinTable.Proofs.Manifest.Fields

set_option autoImplicit false

namespace PinTable

open Entries (find?)

/-- The value at a place is an object without a key. -/
def Lacks (root : Json) (place : Location) (key : String) : Prop :=
  ∃ object, place.Holds root (.object object) ∧ find? key object = none

/-- The place is in the device of a name, which has the default name if it says none. -/
def InDevice (root : Json) (place : Location) (name : String) : Prop :=
  ∃ device object, [.key "io", .index device] <+: place.steps ∧
    root.at? [.key "io", .index device] = some (.object object) ∧
    fieldOr? Device.defaultName Json.text? "name" object = some name

/-- The place is in a group of a kind. -/
def InGroup (root : Json) (place : Location) (kind : PinKind) : Prop :=
  ∃ device group object,
    [.key "io", .index device, .key "groups", .index group] <+: place.steps ∧
    root.at? [.key "io", .index device, .key "groups", .index group] = some (.object object) ∧
    find? "name" object = some (.string kind.name)

/-- What the value at a place has to be like for a cause to hold of it. -/
inductive Justified (root : Json) (place : Location) : DecodeCause → Prop
  | missingRoot (lacks : Lacks root place "io") : Justified root place .missingRoot
  | missingGroups {name : String} (lacks : Lacks root place "groups")
      (device : InDevice root place name) : Justified root place (.missingGroups name)
  | missingGroupName {name : String} (lacks : Lacks root place "name")
      (device : InDevice root place name) : Justified root place (.missingGroupName name)
  | missingPins {name : String} {kind : PinKind} (lacks : Lacks root place "pins")
      (device : InDevice root place name) (group : InGroup root place kind) :
      Justified root place (.missingPins name kind)
  | missingPinName {name : String} {kind : PinKind} (lacks : Lacks root place "name")
      (device : InDevice root place name) (group : InGroup root place kind) :
      Justified root place (.missingPinName name kind)
  | typeMismatch {expected : JsonType} {value : Json} (here : place.Holds root value)
      (other : value.type ≠ expected) : Justified root place (.typeMismatch expected value.type)
  | outOfRange {number : Int} {lower : minInt64 ≤ number} {upper : number ≤ maxNat64}
      (here : place.Holds root (.number (.integer number lower upper)))
      (large : maxInt64 < number) : Justified root place (.outOfRange number)

theorem InDevice.mono {root : Json} {place inner : Location} {name : String}
    (outer : InDevice root place name) (inside : place.steps <+: inner.steps) :
    InDevice root inner name := by
  obtain ⟨device, object, start, found, named⟩ := outer
  exact ⟨device, object, start.trans inside, found, named⟩

theorem InGroup.mono {root : Json} {place inner : Location} {kind : PinKind}
    (outer : InGroup root place kind) (inside : place.steps <+: inner.steps) :
    InGroup root inner kind := by
  obtain ⟨device, group, object, start, found, named⟩ := outer
  exact ⟨device, group, object, start.trans inside, found, named⟩

/-- A fault at a place or in the value there, whose cause holds. -/
structure Blamed (root : Json) (place : Location) (fault : DecodeFault) : Prop where
  document : fault.location.document = place.document
  inside : place.steps <+: fault.location.steps
  justified : Justified root fault.location fault.cause

namespace Blamed

variable {root : Json} {place : Location} {fault : DecodeFault}

theorem here {cause : DecodeCause} (justified : Justified root place cause) :
    Blamed root place ⟨cause, place⟩ :=
  ⟨rfl, List.prefix_rfl, justified⟩

theorem of_key (name : String) (inner : Blamed root (place.key name) fault) :
    Blamed root place fault :=
  ⟨inner.document, (List.prefix_append _ _).trans inner.inside, inner.justified⟩

theorem of_index (position : Nat) (inner : Blamed root (place.index position) fault) :
    Blamed root place fault :=
  ⟨inner.document, (List.prefix_append _ _).trans inner.inside, inner.justified⟩

end Blamed

section Fields

variable {root : Json} {place : Location} {fault : DecodeFault}

theorem blamed_expectObject (value : Json) (holds : place.Holds root value)
    (failed : value.expectObject place = .error fault) : Blamed root place fault := by
  obtain ⟨other, rfl⟩ := (Json.expectObject_eq_error_iff value place fault).1 failed
  exact .here (.typeMismatch holds other)

theorem blamed_expectArray (value : Json) (holds : place.Holds root value)
    (failed : value.expectArray place = .error fault) : Blamed root place fault := by
  obtain ⟨other, rfl⟩ := (Json.expectArray_eq_error_iff value place fault).1 failed
  exact .here (.typeMismatch holds other)

variable {object : Entries Json} (holds : place.Holds root (.object object)) (key : String)

include holds

theorem blamed_stringField? (failed : stringField? object key place = .error fault) :
    Blamed root place fault := by
  obtain ⟨value, found, other, rfl⟩ := (stringField?_eq_error_iff object key place fault).1 failed
  have there : (place.key key).Holds root value := holds.key key value found
  exact .of_key key (.here (.typeMismatch there other))

theorem blamed_integerField? (failed : integerField? object key place = .error fault) :
    Blamed root place fault := by
  obtain ⟨value, found, wrong⟩ := (integerField?_eq_error_iff object key place fault).1 failed
  have there : (place.key key).Holds root value := holds.key key value found
  apply Blamed.of_key key
  rcases wrong with ⟨other, rfl⟩ | ⟨number, lower, upper, rfl, large, rfl⟩
  · exact .here (.typeMismatch there other)
  · exact .here (.outOfRange there large)

variable {missing : DecodeCause} (cause : Lacks root place key → Justified root place missing)

include cause

theorem blamed_requireField (failed : requireField object key place missing = .error fault) :
    Blamed root place fault := by
  obtain ⟨absent, rfl⟩ := (requireField_eq_error_iff object key place missing fault).1 failed
  exact .here (cause ⟨object, holds, absent⟩)

theorem blamed_requireString (failed : requireString object key place missing = .error fault) :
    Blamed root place fault := by
  rcases (requireString_eq_error_iff object key place missing fault).1 failed with
    ⟨absent, rfl⟩ | wrong
  · exact .here (cause ⟨object, holds, absent⟩)
  · exact blamed_stringField? holds key ((stringField?_eq_error_iff object key place fault).2 wrong)

end Fields

/-- A sequence fails at one of its items. -/
theorem blamed_forEachAt {β : Type} {root : Json} {place : Location} {fault : DecodeFault}
    (step : Nat → Json → Decoded β) (items : List Json) (holds : place.Holds root (.array items))
    (each : ∀ position item, (place.index position).Holds root item →
      step position item = .error fault → Blamed root (place.index position) fault)
    (failed : forEachAt step 0 items = .error fault) : Blamed root place fault := by
  obtain ⟨front, item, back, _, rfl, _, culprit⟩ := (forEachAt_eq_error_iff step 0 _ fault).1 failed
  rw [Nat.zero_add] at culprit
  have found : (front ++ item :: back)[front.length]? = some item := by simp
  exact .of_index front.length (each _ item (holds.index _ item found) culprit)

section Levels

variable {root : Json} {place : Location} {fault : DecodeFault}

theorem Pin.blamed_decode (device : String) (kind : PinKind) (value : Json)
    (holds : place.Holds root value) (inDevice : InDevice root place device)
    (inGroup : InGroup root place kind)
    (failed : Pin.decode device kind place value = .error fault) : Blamed root place fault := by
  simp only [Pin.decode, bind_eq_error_iff, Json.expectObject_eq_ok_iff, pure_ne_error, and_false,
    exists_false, or_false] at failed
  rcases failed with failed | ⟨object, rfl, failed⟩
  · exact blamed_expectObject value holds failed
  have text : ∀ key, stringField? object key place = .error fault → Blamed root place fault :=
    blamed_stringField? holds
  have integer : ∀ key, integerField? object key place = .error fault → Blamed root place fault :=
    blamed_integerField? holds
  rcases failed with failed | ⟨_, _, failed | ⟨_, _, failed | ⟨_, _, failed | ⟨_, _, failed |
    ⟨_, _, failed⟩⟩⟩⟩⟩
  · exact blamed_requireString holds "name" (.missingPinName · inDevice inGroup) failed
  · exact text "group" failed
  · exact text "driver" failed
  · exact text "device" failed
  · exact integer "bank" failed
  · exact integer "addr" failed

theorem PinGroup.blamed_decodePins (device : String) (kind : PinKind) (object : Entries Json)
    (holds : place.Holds root (.object object)) (inDevice : InDevice root place device)
    (inGroup : InGroup root place kind)
    (failed : PinGroup.decodePins device kind place object = .error fault) :
    Blamed root place fault := by
  simp only [PinGroup.decodePins, bind_eq_error_iff, requireField_eq_ok_iff,
    Json.expectArray_eq_ok_iff, pure_ne_error, and_false, exists_false, or_false] at failed
  rcases failed with failed | ⟨pins, found, failed | ⟨items, rfl, failed⟩⟩
  · exact blamed_requireField holds "pins" (.missingPins · inDevice inGroup) failed
  · exact .of_key "pins" (blamed_expectArray pins (holds.key "pins" pins found) failed)
  · apply Blamed.of_key "pins"
    apply blamed_forEachAt _ items (holds.key "pins" _ found) _ failed
    intro position item there culprit
    have inside := place.steps_prefix_item "pins" position
    exact Pin.blamed_decode device kind item there (inDevice.mono inside) (inGroup.mono inside)
      culprit

theorem PinGroup.blamed_decode (device : String) (value : Json) (board group : Nat)
    (steps : place.steps = [.key "io", .index board, .key "groups", .index group])
    (holds : place.Holds root value) (inDevice : InDevice root place device)
    (failed : (PinGroup.decode device place value).result = .error fault) :
    Blamed root place fault := by
  simp only [PinGroup.decode, Outcome.result_bind, Outcome.result_ofExcept, bind_eq_error_iff,
    Json.expectObject_eq_ok_iff, requireString_eq_ok_iff] at failed
  rcases failed with failed | ⟨object, rfl, failed | ⟨kindName, named, failed⟩⟩
  · exact blamed_expectObject value holds failed
  · exact blamed_requireString holds "name" (.missingGroupName · inDevice) failed
  · cases known : PinKind.ofName? kindName with
    | none =>
        rw [known] at failed
        cases failed
    | some kind =>
        simp only [known, Outcome.result_bind, Outcome.result_ofExcept, Outcome.result_pure,
          bind_eq_error_iff, pure_ne_error, and_false, exists_false, or_false] at failed
        rw [← PinKind.name_of_ofName? kindName kind known] at named
        have inGroup : InGroup root place kind := by
          refine ⟨board, group, object, ?_, ?_, named⟩
          · simp only [steps, List.prefix_rfl]
          · rw [← steps]
            exact holds
        exact PinGroup.blamed_decodePins device kind object holds inDevice inGroup failed

theorem Device.blamed_decode (value : Json) (board : Nat)
    (steps : place.steps = [.key "io", .index board]) (holds : place.Holds root value)
    (failed : (Device.decode place value).result = .error fault) : Blamed root place fault := by
  simp only [Device.decode, Outcome.result_bind, Outcome.result_ofExcept, Outcome.result_pure,
    result_forEachAt, bind_eq_error_iff, Json.expectObject_eq_ok_iff, stringField?_eq_ok_iff,
    requireField_eq_ok_iff, Json.expectArray_eq_ok_iff, pure_ne_error, and_false, exists_false,
    or_false] at failed
  rcases failed with failed | ⟨object, rfl, failed | ⟨name, isName, failed⟩⟩
  · exact blamed_expectObject value holds failed
  · exact blamed_stringField? holds "name" failed
  -- From here on the name of the device is known.
  have inDevice : InDevice root place (name.getD Device.defaultName) := by
    refine ⟨board, object, ?_, ?_, (fieldOr?_eq_some_iff ..).2 ⟨name, isName, rfl⟩⟩
    · simp only [steps, List.prefix_rfl]
    · rw [← steps]
      exact holds
  rcases failed with failed | ⟨_, _, failed | ⟨groups, found, failed | ⟨items, rfl, failed⟩⟩⟩
  · exact blamed_stringField? holds "prefix" failed
  · exact blamed_requireField holds "groups" (.missingGroups · inDevice) failed
  · exact .of_key "groups" (blamed_expectArray groups (holds.key "groups" groups found) failed)
  · apply Blamed.of_key "groups"
    apply blamed_forEachAt _ items (holds.key "groups" _ found) _ failed
    intro position item there culprit
    have inside := place.steps_prefix_item "groups" position
    have deeper : ((place.key "groups").index position).steps =
        [.key "io", .index board, .key "groups", .index position] := by
      show place.steps ++ [.key "groups"] ++ [.index position] = _
      rw [steps]
      rfl
    exact PinGroup.blamed_decode _ item board position deeper there (inDevice.mono inside) culprit

end Levels

/-- A fault in a document is about the value that its location leads to. -/
theorem fault_justified (document : String) (root : Json) (fault : DecodeFault)
    (failed : (Manifest.decode (.root document) root).result = .error fault) :
    fault.location.document = document ∧ Justified root fault.location fault.cause := by
  have holds := Location.Holds.root document root
  simp only [Manifest.decode, Outcome.result_bind, Outcome.result_ofExcept, Outcome.result_pure,
    result_forEachAt, bind_eq_error_iff, Json.expectObject_eq_ok_iff, requireField_eq_ok_iff,
    Json.expectArray_eq_ok_iff, pure_ne_error, and_false, exists_false, or_false] at failed
  have blamed : Blamed root (.root document) fault := by
    rcases failed with failed | ⟨object, rfl, failed | ⟨devices, found, failed | ⟨items, rfl, failed⟩⟩⟩
    · exact blamed_expectObject root holds failed
    · exact blamed_requireField holds "io" .missingRoot failed
    · exact .of_key "io" (blamed_expectArray devices (holds.key "io" devices found) failed)
    · apply Blamed.of_key "io"
      apply blamed_forEachAt _ items (holds.key "io" _ found) _ failed
      intro position item there culprit
      exact Device.blamed_decode item position rfl there culprit
  exact ⟨blamed.document, blamed.justified⟩

/-- A document whose device has no name, and a pin without name in its second group. -/
def documentOfNamelessPin : Json :=
  .object [("io", .array [.object [("groups", .array [
    .object [("name", .string "leds")],
    .object [("pins", .array [.object [("name", .string "door")], .object [("touch", .bool true)]]),
      ("name", .string "inputs")]])]])]

def faultOfNamelessPin : DecodeFault :=
  let group := ((((Location.root "io.json").key "io").index 0).key "groups").index 1
  ⟨.missingPinName "ioblock" .inputs, (group.key "pins").index 1⟩

theorem fault_justified_documentOfNamelessPin :
    (Manifest.decode (.root "io.json") documentOfNamelessPin).result =
        .error faultOfNamelessPin ∧
      faultOfNamelessPin.location.document = "io.json" ∧
      Justified documentOfNamelessPin faultOfNamelessPin.location faultOfNamelessPin.cause := by
  have failed : (Manifest.decode (.root "io.json") documentOfNamelessPin).result =
      .error faultOfNamelessPin := by
    rfl
  exact ⟨failed, fault_justified _ _ _ failed⟩

end PinTable
