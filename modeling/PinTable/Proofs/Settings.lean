import PinTable.Proofs.Listing.DeviceText
import PinTable.Proofs.Manifest.Sequence
import PinTable.Proofs.Reading.Names

set_option autoImplicit false

namespace PinTable

namespace Parameter

theorem ofKey?_eq_some_iff (text : String) (parameter : Parameter) :
    ofKey? text = some parameter ↔ parameter.key = text := by
  refine ⟨key_of_ofKey? text parameter, ?_⟩
  rintro rfl
  exact ofKey?_key parameter

theorem key_inj {one other : Parameter} (same : one.key = other.key) : one = other := by
  have found := congrArg ofKey? same
  rwa [ofKey?_key, ofKey?_key, Option.some_inj] at found

end Parameter

namespace Attribute

/-- The key of the attribute is that of a parameter. -/
def Known (entry : Attribute) : Prop := ∃ parameter : Parameter, parameter.key = entry.key

instance : DecidablePred Known := fun entry =>
  decidable_of_iff (∃ parameter ∈ Parameter.all, parameter.key = entry.key)
    ⟨fun ⟨parameter, _, same⟩ => ⟨parameter, same⟩,
      fun ⟨parameter, same⟩ => ⟨parameter, parameter.mem_all, same⟩⟩

/-- The attribute sets a parameter. -/
def Usable (entry : Attribute) : Prop :=
  entry.Known ∧ ∃ value, entry.value.integerLike? = some value

instance : DecidablePred Usable := fun entry =>
  decidable_of_iff (entry.Known ∧ entry.value.integerLike?.isSome)
    (and_congr_right fun _ => Option.isSome_iff_exists)

/-- What the attribute sets. A speed is counted in hundreds, and what is left of them is dropped. -/
structure Gives (entry : Attribute) (setting : Setting) : Prop where
  key : setting.1.key = entry.key
  value : ∃ value, entry.value.integerLike? = some value ∧
    if setting.1 = .speed then 100 * setting.2 ≤ value ∧ value < 100 * setting.2 + 100
    else setting.2 = value

/-- The warning about an attribute that sets nothing. Its value counts only if its key is known. -/
def refusal (pin : String) (entry : Attribute) : Warning :=
  if entry.Known then .badValue pin entry.key else .unknownAttribute pin entry.key

/-- An attribute is a setting if it is usable, and else a warning. -/
theorem setting_cases (pin : String) (entry : Attribute) :
    (∃ setting, entry.setting pin = .ok setting ∧ entry.Usable ∧ entry.Gives setting) ∨
      (entry.setting pin = .error (entry.refusal pin) ∧ ¬ entry.Usable) := by
  unfold setting refusal
  cases found : Parameter.ofKey? entry.key with
  | none =>
      have unknown : ¬ entry.Known := by
        rintro ⟨parameter, same⟩
        rw [(Parameter.ofKey?_eq_some_iff _ _).2 same] at found
        cases found
      refine .inr ⟨?_, fun usable => unknown usable.1⟩
      rw [if_neg unknown]
  | some parameter =>
      have same := (Parameter.ofKey?_eq_some_iff _ _).1 found
      have known : entry.Known := ⟨parameter, same⟩
      cases integer : entry.value.integerLike? with
      | none =>
          refine .inr ⟨?_, ?_⟩
          · rw [if_pos known]
          · rintro ⟨_, value, isValue⟩
            rw [integer] at isValue
            cases isValue
      | some value =>
          refine .inl ⟨_, rfl, ⟨known, value, integer⟩, same, value, integer, ?_⟩
          dsimp only [Parameter.scale, speedUnit]
          split
          · omega
          · rfl

/-- The attributes that set a parameter, in order. -/
def usable (entries : List Attribute) : List Attribute := entries.filter fun entry => entry.Usable

/-- The other attributes, in order. -/
def idle (entries : List Attribute) : List Attribute := entries.filter fun entry => ¬ entry.Usable

variable {entry : Attribute}

theorem usable_cons_of_usable (isUsable : entry.Usable) (rest : List Attribute) :
    usable (entry :: rest) = entry :: usable rest :=
  List.filter_cons_of_pos (decide_eq_true isUsable)

theorem usable_cons_of_idle (isIdle : ¬ entry.Usable) (rest : List Attribute) :
    usable (entry :: rest) = usable rest :=
  List.filter_cons_of_neg (by simpa using isIdle)

theorem idle_cons_of_usable (isUsable : entry.Usable) (rest : List Attribute) :
    idle (entry :: rest) = idle rest :=
  List.filter_cons_of_neg (by simpa using isUsable)

theorem idle_cons_of_idle (isIdle : ¬ entry.Usable) (rest : List Attribute) :
    idle (entry :: rest) = entry :: idle rest :=
  List.filter_cons_of_pos (decide_eq_true isIdle)

end Attribute

open Attribute (usable idle)

/-- The settings and the warnings that attributes come to. -/
structure Accounts (pin : String) (entries : List Attribute) (settings : List Setting)
    (warnings : List Warning) : Prop where
  given : List.Forall₂ Attribute.Gives (usable entries) settings
  warned : warnings = (idle entries).map (Attribute.refusal pin)
  /-- No attribute is passed over, and none counts twice. -/
  count : settings.length + warnings.length = entries.length

namespace Accounts

variable {pin : String} {entry : Attribute} {entries : List Attribute} {settings : List Setting}
  {warnings : List Warning}

theorem nil (pin : String) : Accounts pin [] [] [] := ⟨.nil, rfl, rfl⟩

theorem cons_setting (accounts : Accounts pin entries settings warnings) {setting : Setting}
    (isUsable : entry.Usable) (gives : entry.Gives setting) :
    Accounts pin (entry :: entries) (setting :: settings) warnings := by
  constructor
  case given =>
    rw [Attribute.usable_cons_of_usable isUsable]
    exact .cons gives accounts.given
  case warned =>
    rw [Attribute.idle_cons_of_usable isUsable]
    exact accounts.warned
  case count =>
    have counted := accounts.count
    simp only [List.length_cons]
    omega

theorem cons_warning (accounts : Accounts pin entries settings warnings)
    (isIdle : ¬ entry.Usable) :
    Accounts pin (entry :: entries) settings (entry.refusal pin :: warnings) := by
  constructor
  case given =>
    rw [Attribute.usable_cons_of_idle isIdle]
    exact accounts.given
  case warned => rw [Attribute.idle_cons_of_idle isIdle, List.map_cons, accounts.warned]
  case count =>
    have counted := accounts.count
    simp only [List.length_cons]
    omega

/-- The keys of the parameters that are set are those of the usable attributes. -/
theorem map_key (accounts : Accounts pin entries settings warnings) :
    settings.map (fun setting => setting.1.key) = (usable entries).map Attribute.key :=
  (map_eq_of_forall₂ (accounts.given.imp fun _ _ gives => gives.key.symm)).symm

/-- A parameter is set just if a usable attribute has its key. -/
theorem mem_iff (accounts : Accounts pin entries settings warnings) (parameter : Parameter) :
    parameter ∈ settings.map Prod.fst ↔ ∃ entry ∈ usable entries, entry.key = parameter.key := by
  have keyed : parameter ∈ settings.map Prod.fst ↔
      parameter.key ∈ settings.map fun setting => setting.1.key := by
    simp only [List.mem_map]
    refine exists_congr fun setting => and_congr_right fun _ => ?_
    exact ⟨congrArg Parameter.key, Parameter.key_inj⟩
  rw [keyed, accounts.map_key, List.mem_map]

end Accounts

theorem Pin.setting?_eq_some_iff (pin : Pin) (entry : Attribute) (parameter : Parameter)
    (value : Int) : pin.setting? entry = some (parameter, value) ↔
      parameter.key = entry.key ∧
        ∃ number, entry.value.integerLike? = some number ∧ parameter.scale number = value := by
  rw [← Parameter.ofKey?_eq_some_iff]
  unfold setting? Attribute.setting
  cases Parameter.ofKey? entry.key with
  | none => simp
  | some known =>
      cases entry.value.integerLike? with
      | none => simp
      | some number =>
          simp only [Option.some_inj, Prod.mk.injEq, exists_eq_left']
          refine and_congr_right ?_
          rintro rfl
          exact Iff.rfl

/-- One attribute after the other is a setting or a warning. -/
theorem Pin.accounts_filterMap (pin : Pin) (entries : List Attribute) :
    Accounts pin.name entries (entries.filterMap pin.setting?)
      (entries.filterMap pin.complaint?) := by
  induction entries with
  | nil => exact .nil pin.name
  | cons entry rest ih =>
      rcases entry.setting_cases pin.name with ⟨setting, same, isUsable, gives⟩ | ⟨refused, isIdle⟩
      · have given : pin.setting? entry = some setting := by rw [setting?, same]
        have silent : pin.complaint? entry = none := by rw [complaint?, same]
        rw [List.filterMap_cons_some given, List.filterMap_cons_none silent]
        exact ih.cons_setting isUsable gives
      · have nothing : pin.setting? entry = none := by rw [setting?, refused]
        have warned : pin.complaint? entry = some (entry.refusal pin.name) := by
          rw [complaint?, refused]
        rw [List.filterMap_cons_none nothing, List.filterMap_cons_some warned]
        exact ih.cons_warning isIdle

namespace Settings

theorem accounts_ofAttributes (pin : Pin) :
    Accounts pin.name pin.attributes (ofAttributes pin).list pin.warnings :=
  pin.accounts_filterMap pin.attributes

/-- The setting that a timer gets if no usable attribute says whether it interrupts. -/
def implied (kind : PinKind) (pin : Pin) : List Setting :=
  if kind = .timers ∧ ∀ entry ∈ usable pin.attributes, entry.key ≠ "interrupt"
  then [(.interrupt, 1)] else []

theorem interrupts_iff (settings : Settings) :
    settings.interrupts = true ↔ Parameter.interrupt ∈ settings.list.map Prod.fst := by
  simp [interrupts]

theorem interrupts_ofAttributes_eq_false_iff (pin : Pin) :
    (ofAttributes pin).interrupts = false ↔
      ∀ entry ∈ usable pin.attributes, entry.key ≠ "interrupt" := by
  rw [← Bool.not_eq_true, interrupts_iff, (accounts_ofAttributes pin).mem_iff]
  simp only [not_exists, not_and]
  rfl

theorem list_ofPin (kind : PinKind) (pin : Pin) :
    (ofPin kind pin).list = (ofAttributes pin).list ++ implied kind pin := by
  rw [ofPin, implied]
  simp only [← interrupts_ofAttributes_eq_false_iff]
  split
  · rfl
  · rw [List.append_nil]

end Settings

namespace Reading

/-- Names, each with the integer behind it. -/
def pairsIn? : List String → Option (List (String × Int))
  | [] => some []
  | [_] => none
  | name :: value :: rest => do
      let number ← readInt? value.toList
      let others ← pairsIn? rest
      return (name, number) :: others

/-- The settings that the entries of an array show, behind its two reserved places. -/
def settingsIn? (text : String) : Option (List (String × Int)) :=
  match entriesIn text with
  | first :: second :: rest =>
      if first = "PIN_RV" ∧ second = "PIN_RV" then pairsIn? rest else none
  | _ => none

theorem pairsIn?_flatMap (settings : List Setting) :
    pairsIn? (settings.flatMap fun setting => [setting.1.symbol, intText setting.2]) =
      some (settings.map fun setting => (setting.1.symbol, setting.2)) := by
  induction settings with
  | nil => rfl
  | cons setting rest ih =>
      rw [List.flatMap_cons, List.cons_append, List.cons_append, List.nil_append, pairsIn?,
        readInt?_intText, ih]
      rfl

theorem entriesIn_settings (settings : Settings) : entriesIn settings.text = settings.entries :=
  entriesIn_commaList _ (List.cons_ne_nil _ _) (Listing.word_entries settings)

/-- The settings are read back from the array that shows them. -/
theorem settingsIn?_text (settings : Settings) :
    settingsIn? settings.text =
      some (settings.list.map fun setting => (setting.1.symbol, setting.2)) := by
  rw [settingsIn?, entriesIn_settings, ← pairsIn?_flatMap]
  rfl

end Reading

open Reading in
/-- Each attribute of a pin, whatever its key and wherever it stands, is a setting or a warning. The
array shows the settings and, at its end, the interrupt of a timer that does not tell of one. -/
theorem attributes_accounted (kind : PinKind) (pin : Pin) :
    let settings := Settings.ofPin kind pin
    let implied := Settings.implied kind pin
    (∃ given, Accounts pin.name pin.attributes given pin.warnings ∧
      settings.list = given ++ implied) ∧
    settings.list.length + pin.warnings.length = pin.attributes.length + implied.length ∧
    settingsIn? settings.text =
      some (settings.list.map fun setting => (setting.1.symbol, setting.2)) ∧
    (entriesIn settings.text).length = 2 + 2 * settings.list.length := by
  intro settings implied
  have accounts := Settings.accounts_ofAttributes pin
  have list : settings.list = (Settings.ofAttributes pin).list ++ implied :=
    Settings.list_ofPin kind pin
  refine ⟨⟨_, accounts, list⟩, ?_, settingsIn?_text settings, ?_⟩
  · have counted := accounts.count
    rw [list, List.length_append]
    omega
  · rw [entriesIn_settings, Settings.length_entries]

/-- A timer of a speed below zero, which does not tell in a usable way whether it interrupts. -/
example : (Settings.ofPin .timers ⟨"tick", 0, 0, none, none, none,
    [⟨"speed", .string "-250"⟩, ⟨"interrupt", .string "often"⟩], .root "io.json"⟩).text =
      "PIN_RV, PIN_RV, PIN_SPEED, -3, PIN_INTERRUPT_ENABLED, 1" := by
  decide +kernel

end PinTable
