import PinTable.Proofs.Manifest.Fields

set_option autoImplicit false

namespace PinTable

open Entries (find?)

namespace Outcome

variable {ε α β : Type}

theorem andThen_assoc {γ : Type} (first : Outcome ε α) (next : α → Outcome ε β)
    (last : β → Outcome ε γ) :
    (first.andThen next).andThen last = first.andThen fun value => (next value).andThen last := by
  cases found : first.result with
  | error reason =>
      rw [andThen_of_error _ _ _ found, andThen_of_error _ _ _ found]
      exact andThen_of_error _ _ reason rfl
  | ok value =>
      rw [andThen_of_ok _ _ _ found, andThen_of_ok _ _ _ found]
      cases after : (next value).result with
      | error reason => rw [andThen_of_error _ _ reason rfl, andThen_of_error _ _ _ after]
      | ok other => rw [andThen_of_ok _ _ other rfl, andThen_of_ok _ _ _ after, List.append_assoc]

theorem andThen_ok (first : Outcome ε α) : first.andThen ok = first := by
  obtain ⟨events, error | value⟩ := first
  · rfl
  · simp only [andThen, ok, List.append_nil]

instance : LawfulMonad (Outcome ε) := LawfulMonad.mk' _ andThen_ok ok_andThen andThen_assoc

@[simp] theorem ofExcept_ok_bind (value : α) (next : α → Outcome ε β) :
    (ofExcept (.ok value) >>= next) = next value := by
  rw [bind_eq_andThen, andThen_of_ok _ _ value rfl]
  rfl

@[simp] theorem ofExcept_error_bind (error : ε) (next : α → Outcome ε β) :
    (ofExcept (.error error) >>= next) = fail error := rfl

theorem ofExcept_bind (first : Except ε α) (next : α → Except ε β) :
    ofExcept (first >>= next) = ofExcept first >>= fun value => ofExcept (next value) := by
  cases first with
  | error reason => rfl
  | ok value => exact (ofExcept_ok_bind value fun value => ofExcept (next value)).symm

/-- What is made of a result adds no events. -/
theorem events_bind_pure (first : Outcome ε α) (make : α → β) :
    (first >>= fun value => pure (make value)).events = first.events := by
  rw [bind_eq_andThen]
  cases found : first.result with
  | error reason => rw [andThen_of_error _ _ _ found]
  | ok value =>
      rw [andThen_of_ok _ _ _ found]
      exact List.append_nil _

theorem result_bind_pure_eq_error_iff (first : Outcome ε α) (make : α → β) (error : ε) :
    (first >>= fun value => pure (make value)).result = .error error ↔
      first.result = .error error := by
  simp only [result_bind, result_pure, bind_eq_error_iff, pure_ne_error, and_false, exists_false,
    or_false]

end Outcome

section Items

variable {ε α β : Type}

theorem forEachAt_append {m : Type → Type} [Monad m] [LawfulMonad m] (step : Nat → α → m β)
    (position : Nat) (front back : List α) :
    forEachAt step position (front ++ back) = (do
      let first ← forEachAt step position front
      let others ← forEachAt step (position + front.length) back
      return first ++ others) := by
  induction front generalizing position with
  | nil => simp only [List.nil_append, forEachAt, pure_bind, List.length_nil, Nat.add_zero, bind_pure]
  | cons item rest ih =>
      simp only [List.cons_append, forEachAt, ih, bind_assoc, pure_bind, List.length_cons,
        Nat.add_assoc, Nat.add_comm 1]

/-- The items behind one that fails have no part in the outcome. -/
theorem forEachAt_stops (step : Nat → α → Outcome ε β) (position : Nat) (front : List α) (item : α)
    (back : List α) (results : List β) (error : ε)
    (before : EachGives (fun position item => (step position item).result) position front results)
    (failed : (step (position + front.length) item).result = .error error) :
    forEachAt step position (front ++ item :: back) =
      ⟨(forEachAt step position front).events ++ (step (position + front.length) item).events,
        .error error⟩ := by
  have given : (forEachAt step position front).result = .ok results := by
    rw [result_forEachAt]
    exact (forEachAt_eq_ok_iff _ _ _ _).2 before
  simp only [forEachAt_append, forEachAt, Outcome.bind_eq_andThen]
  rw [Outcome.andThen_of_ok _ _ results given, Outcome.andThen_of_error _ _ error failed]
  rfl

/-- The events of items that all give results, where those of an item do not hang on its position. -/
theorem events_forEachAt (step : Nat → α → Outcome ε β) (events : α → List Event) (position : Nat)
    (items : List α) (results : List β)
    (gives : EachGives (fun position item => (step position item).result) position items results)
    (each : ∀ item ∈ items, ∀ position result, (step position item).result = .ok result →
      (step position item).events = events item) :
    (forEachAt step position items).events = items.flatMap events := by
  induction items generalizing position results with
  | nil => rfl
  | cons first rest ih =>
      obtain ⟨value, values, isFirst, areRest, rfl⟩ := List.forall₂_cons_left_iff.1 gives
      obtain ⟨here, later⟩ := List.forall_mem_cons.1 each
      have others : (forEachAt step (position + 1) rest).result = .ok values := by
        rw [result_forEachAt]
        exact (forEachAt_eq_ok_iff _ _ _ _).2 areRest
      rw [forEachAt, Outcome.bind_eq_andThen, Outcome.andThen_of_ok _ _ value isFirst,
        Outcome.bind_eq_andThen, Outcome.andThen_of_ok _ _ values others, List.flatMap_cons,
        here position value isFirst, ih (position + 1) values areRest later]
      exact congrArg _ (List.append_nil _)

theorem forEachAt_congr (step : Nat → α → Outcome ε β) (position : Nat) (items others : List α)
    (each : List.Forall₂ (fun item other => ∀ position, step position other = step position item)
      items others) : forEachAt step position others = forEachAt step position items := by
  induction each generalizing position with
  | nil => rfl
  | cons same _ ih => rw [forEachAt, forEachAt, same position, ih (position + 1)]

/-- Steps without events may as well be taken as steps with events. -/
theorem ofExcept_forEachAt (step : Nat → α → Except ε β) (position : Nat) (items : List α) :
    Outcome.ofExcept (forEachAt step position items) =
      forEachAt (fun position item => Outcome.ofExcept (step position item)) position items := by
  induction items generalizing position with
  | nil => rfl
  | cons item rest ih =>
      simp only [forEachAt, Outcome.ofExcept_bind, ih]
      rfl

end Items

/-- Decodes the items of the array under a key, each at its place. -/
def decodeItems {β : Type} (key : String) (missing : DecodeCause)
    (step : Location → Json → Decoding β) (place : Location) (object : Entries Json) :
    Decoding (List β) := do
  let field ← .ofExcept (requireField object key place missing)
  let items ← .ofExcept (field.expectArray (place.key key))
  forEachAt (fun position item => step ((place.key key).index position) item) 0 items

theorem decodeItems_array {β : Type} (key : String) (missing : DecodeCause)
    (step : Location → Json → Decoding β) (place : Location) (object : Entries Json)
    (items : List Json) (found : find? key object = some (.array items)) :
    decodeItems key missing step place object =
      forEachAt (fun position item => step ((place.key key).index position) item) 0 items := by
  rw [decodeItems, (requireField_eq_ok_iff ..).2 found, Outcome.ofExcept_ok_bind,
    (Json.expectArray_eq_ok_iff _ _ items).2 rfl, Outcome.ofExcept_ok_bind]

theorem Manifest.decode_object (place : Location) (object : Entries Json) :
    Manifest.decode place (.object object) = (do
      let devices ← decodeItems "io" .missingRoot Device.decode place object
      return ⟨devices⟩) := by
  simp only [Manifest.decode, decodeItems, Json.expectObject, Outcome.ofExcept_ok_bind,
    bind_assoc]

theorem Device.decode_object (place : Location) (object : Entries Json) :
    Device.decode place (.object object) = (do
      let name ← .ofExcept (stringField? object "name" place)
      let base ← .ofExcept (stringField? object "prefix" place)
      let name := name.getD defaultName
      let groups ← decodeItems "groups" (.missingGroups name) (PinGroup.decode name) place object
      return ⟨name, base.getD defaultBase, groups.filterMap id, place⟩) := by
  simp only [Device.decode, decodeItems, Json.expectObject, Outcome.ofExcept_ok_bind,
    bind_assoc]

theorem Pin.decode_object (device : String) (kind : PinKind) (place : Location)
    (object : Entries Json) :
    Pin.decode device kind place (.object object) = (do
      let name ← requireString object "name" place (.missingPinName device kind)
      let tag ← stringField? object "group" place
      let driver ← stringField? object "driver" place
      let chip ← stringField? object "device" place
      let bank ← integerField? object "bank" place
      let addr ← integerField? object "addr" place
      return ⟨name, bank.getD 0, addr.getD 0, tag, driver, chip, attributesOf object, place⟩) :=
  rfl

/-- Pins are decoded without events. -/
def PinGroup.decodePin (device : String) (kind : PinKind) (place : Location) (value : Json) :
    Decoding Pin :=
  .ofExcept (Pin.decode device kind place value)

section Group

variable (device : String) (place : Location) (object : Entries Json)

theorem PinGroup.decode_unnamed (fault : DecodeFault)
    (failed : requireString object "name" place (.missingGroupName device) = .error fault) :
    PinGroup.decode device place (.object object) = .fail fault := by
  simp only [PinGroup.decode, Json.expectObject, Outcome.ofExcept_ok_bind, failed,
    Outcome.ofExcept_error_bind]

theorem PinGroup.decode_unknown (kindName : String)
    (named : find? "name" object = some (.string kindName))
    (unknown : PinKind.ofName? kindName = none) :
    PinGroup.decode device place (.object object) =
      .reporting [.warned (.unknownGroup device kindName)] none := by
  simp only [PinGroup.decode, Json.expectObject, Outcome.ofExcept_ok_bind,
    (requireString_eq_ok_iff ..).2 named, unknown]

theorem PinGroup.decode_known (kind : PinKind)
    (named : find? "name" object = some (.string kind.name)) :
    PinGroup.decode device place (.object object) = (do
      let pins ← decodeItems "pins" (.missingPins device kind) (decodePin device kind) place object
      return some ⟨kind, pins, place⟩) := by
  simp only [PinGroup.decode, Json.expectObject, Outcome.ofExcept_ok_bind,
    (requireString_eq_ok_iff ..).2 named, PinKind.ofName?_name]
  simp only [PinGroup.decodePins, decodeItems, decodePin, Outcome.ofExcept_bind, ofExcept_forEachAt,
    bind_assoc]
  rfl

end Group

end PinTable
