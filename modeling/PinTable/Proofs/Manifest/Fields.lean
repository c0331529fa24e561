import PinTable.IntegerLike
import PinTable.Proofs.Manifest.Sequence

set_option autoImplicit false

namespace PinTable

open Entries (find?)

section Fault

variable {α : Type} (place : Location) (cause : DecodeCause)

@[simp] theorem faultAt_eq_error_iff (fault : DecodeFault) :
    (faultAt place cause : Decoded α) = .error fault ↔ fault = ⟨cause, place⟩ := by
  rw [faultAt, Except.error.injEq, eq_comm]

@[simp] theorem faultAt_ne_ok (value : α) : faultAt place cause ≠ .ok value := by
  simp [faultAt]

end Fault

namespace Json

/-- The text that a value is. -/
def text? : Json → Option String
  | string text => some text
  | _ => none

/-- The signed 64-bit integer that a value is. -/
def int64? : Json → Option Int
  | number (.integer value _ _) => toInt64? value
  | _ => none

@[simp] theorem text?_eq_some_iff (value : Json) (text : String) :
    value.text? = some text ↔ value = string text := by
  cases value <;> simp [text?]

theorem type_eq_object_iff (value : Json) :
    value.type = .object ↔ ∃ entries, value = object entries := by
  cases value with
  | number value => cases value <;> simp [type]
  | _ => simp [type]

theorem type_eq_array_iff (value : Json) : value.type = .array ↔ ∃ items, value = array items := by
  cases value with
  | number value => cases value <;> simp [type]
  | _ => simp [type]

theorem type_eq_string_iff (value : Json) : value.type = .string ↔ ∃ text, value = string text := by
  cases value with
  | number value => cases value <;> simp [type]
  | _ => simp [type]

variable (value : Json) (place : Location)

theorem expectObject_eq_ok_iff (entries : Entries Json) :
    value.expectObject place = .ok entries ↔ value = object entries := by
  cases value <;> simp [expectObject]

theorem expectObject_eq_error_iff (fault : DecodeFault) :
    value.expectObject place = .error fault ↔
      value.type ≠ .object ∧ fault = ⟨.typeMismatch .object value.type, place⟩ := by
  rw [ne_eq, type_eq_object_iff]
  cases value <;> simp [expectObject]

theorem expectArray_eq_ok_iff (items : List Json) :
    value.expectArray place = .ok items ↔ value = array items := by
  cases value <;> simp [expectArray]

theorem expectArray_eq_error_iff (fault : DecodeFault) :
    value.expectArray place = .error fault ↔
      value.type ≠ .array ∧ fault = ⟨.typeMismatch .array value.type, place⟩ := by
  rw [ne_eq, type_eq_array_iff]
  cases value <;> simp [expectArray]

end Json

/-- What a field of an object says: what its value is read as, or nothing if it is missing. -/
def FieldSays {α : Type} (read : Json → Option α) (key : String) (object : Entries Json)
    (said : Option α) : Prop :=
  (find? key object).map read = said.map some

/-- What a field of an object is read as, with a default for a missing one. -/
def fieldOr? {α : Type} (missing : α) (read : Json → Option α) (key : String)
    (object : Entries Json) : Option α :=
  match find? key object with
  | none => some missing
  | some value => read value

theorem fieldOr?_eq_some_iff {α : Type} (missing : α) (read : Json → Option α) (key : String)
    (object : Entries Json) (result : α) :
    fieldOr? missing read key object = some result ↔
      ∃ said, FieldSays read key object said ∧ said.getD missing = result := by
  unfold fieldOr? FieldSays
  cases find? key object with
  | none =>
      rw [Option.some_inj]
      constructor
      · rintro rfl
        exact ⟨none, rfl, rfl⟩
      · rintro ⟨said, absent, rfl⟩
        rw [Option.map_eq_none_iff.1 absent.symm, Option.getD_none]
  | some value =>
      constructor
      · intro reads
        exact ⟨some result, congrArg some reads, rfl⟩
      · rintro ⟨said, reads, rfl⟩
        obtain ⟨known, rfl, same⟩ := Option.map_eq_some_iff.1 reads.symm
        exact same.symm

theorem fieldSays_text_iff (key : String) (object : Entries Json) (said : Option String) :
    FieldSays Json.text? key object said ↔ find? key object = said.map .string := by
  unfold FieldSays
  cases find? key object <;> cases said <;> simp

variable (object : Entries Json) (key : String) (place : Location)

theorem stringField?_eq_ok_iff (said : Option String) :
    stringField? object key place = .ok said ↔ FieldSays Json.text? key object said := by
  rw [fieldSays_text_iff]
  unfold stringField?
  split
  · next missing => cases said <;> simp [missing]
  · next text found => cases said <;> simp [found]
  · next value other found =>
      refine iff_of_false (fun same => by cases same) ?_
      rw [found]
      cases said with
      | none => exact fun same => by cases same
      | some text => exact fun same => other text (Option.some.inj same)

theorem stringField?_eq_error_iff (fault : DecodeFault) :
    stringField? object key place = .error fault ↔
      ∃ value, find? key object = some value ∧ value.type ≠ .string ∧
        fault = ⟨.typeMismatch .string value.type, place.key key⟩ := by
  unfold stringField?
  split
  · next missing => simp [missing]
  · next text found => simp [found, Json.type]
  · next value other found =>
      have type : value.type ≠ .string := by
        rw [ne_eq, Json.type_eq_string_iff]
        rintro ⟨text, rfl⟩
        exact other text rfl
      simp [found, type]

theorem integerField?_eq_ok_iff (said : Option Int) :
    integerField? object key place = .ok said ↔ FieldSays Json.int64? key object said := by
  unfold integerField? FieldSays
  split
  · next missing => cases said <;> simp [missing]
  · next value lower upper found =>
      have read : (Json.number (.integer value lower upper)).int64? = toInt64? value := rfl
      rw [found, Option.map_some, read]
      split
      · next inside =>
          have word := (toInt64?_eq_some_iff value value).2 ⟨rfl, lower, inside⟩
          cases said <;> simp [word]
      · next outside =>
          have word : toInt64? value = none := if_neg fun both => outside both.2
          cases said <;> simp [word]
  · next value other found =>
      have read : value.int64? = none := by
        unfold Json.int64?
        split
        · next number lower upper => exact absurd rfl (other number lower upper)
        · rfl
      cases said <;> simp [found, read]

/-- The value of a field is no integer, or too large an integer. -/
theorem integerField?_eq_error_iff (fault : DecodeFault) :
    integerField? object key place = .error fault ↔
      ∃ value, find? key object = some value ∧
        ((value.type ≠ .integer ∧
            fault = ⟨.typeMismatch .integer value.type, place.key key⟩) ∨
          ∃ number lower upper, value = .number (.integer number lower upper) ∧
            maxInt64 < number ∧ fault = ⟨.outOfRange number, place.key key⟩) := by
  unfold integerField?
  split
  · next missing => simp [missing]
  · next value lower upper found =>
      have type : (Json.number (.integer value lower upper)).type = .integer := rfl
      split
      · next inside =>
          refine iff_of_false (fun same => by cases same) ?_
          rintro ⟨other, isOther, different | ⟨number, _, _, same, large, _⟩⟩
          · rw [found, Option.some_inj] at isOther
            rw [← isOther] at different
            exact different.1 type
          · rw [found, Option.some_inj] at isOther
            rw [← isOther] at same
            cases same
            exact absurd inside (by omega)
      · next outside =>
          have large : maxInt64 < value := by omega
          simp [found, type, large, lower, upper]
  · next value other found =>
      have type : value.type ≠ .integer := by
        intro same
        cases value with
        | number value =>
            cases value with
            | integer value lower upper => exact other value lower upper rfl
            | real value => cases same
        | _ => cases same
      have different : ∀ number lower upper, value ≠ .number (.integer number lower upper) :=
        fun number lower upper same => other number lower upper same
      simp [found, type, different]

variable (missing : DecodeCause)

theorem requireField_eq_ok_iff (value : Json) :
    requireField object key place missing = .ok value ↔ find? key object = some value := by
  unfold requireField
  cases find? key object <;> simp

theorem requireField_eq_error_iff (fault : DecodeFault) :
    requireField object key place missing = .error fault ↔
      find? key object = none ∧ fault = ⟨missing, place⟩ := by
  unfold requireField
  cases find? key object <;> simp

theorem requireString_eq_ok_iff (text : String) :
    requireString object key place missing = .ok text ↔
      find? key object = some (.string text) := by
  simp only [requireString, bind_eq_ok_iff, stringField?_eq_ok_iff, fieldSays_text_iff]
  constructor
  · rintro ⟨said, told, given⟩
    cases said with
    | none => cases given
    | some known =>
        cases given
        exact told
  · intro found
    exact ⟨some text, found, rfl⟩

theorem requireString_eq_error_iff (fault : DecodeFault) :
    requireString object key place missing = .error fault ↔
      (find? key object = none ∧ fault = ⟨missing, place⟩) ∨
        ∃ value, find? key object = some value ∧ value.type ≠ .string ∧
          fault = ⟨.typeMismatch .string value.type, place.key key⟩ := by
  simp only [requireString, bind_eq_error_iff, stringField?_eq_ok_iff, stringField?_eq_error_iff,
    fieldSays_text_iff]
  rw [or_comm]
  refine or_congr_left ?_
  constructor
  · rintro ⟨said, told, failed⟩
    cases said with
    | none =>
        cases failed
        exact ⟨told, rfl⟩
    | some known => cases failed
  · rintro ⟨absent, rfl⟩
    exact ⟨none, absent, rfl⟩

section Lookup

variable {object key} {other : Entries Json} (same : find? key other = find? key object)

include same

theorem stringField?_congr : stringField? other key place = stringField? object key place := by
  simp only [stringField?, same]

theorem integerField?_congr : integerField? other key place = integerField? object key place := by
  simp only [integerField?, same]

theorem requireField_congr :
    requireField other key place missing = requireField object key place missing := by
  simp only [requireField, same]

theorem requireString_congr :
    requireString other key place missing = requireString object key place missing := by
  simp only [requireString, stringField?_congr place same]

end Lookup

end PinTable
