import PinTable.Proofs.Json.DistinctKeys
import PinTable.Proofs.Manifest.Records
import PinTable.Proofs.Settings

set_option autoImplicit false

namespace PinTable

open Attribute (usable)
open Entries (keys)

namespace Pin

/-- The pin is decoded from a value that repeats no key in an object, as no value that is read does,
see `Json.distinctKeys_of_loadDocument`. -/
def IsDecoded (pin : Pin) : Prop :=
  ∃ device kind place value, value.DistinctKeys ∧ Pin.decode device kind place value = .ok pin

/-- No two attributes of the pin share a key. -/
def DistinctAttributes (pin : Pin) : Prop := (pin.attributes.map Attribute.key).Nodup

theorem IsDecoded.distinct {pin : Pin} (isDecoded : pin.IsDecoded) : pin.DistinctAttributes := by
  obtain ⟨device, kind, place, value, distinct, decoded⟩ := isDecoded
  obtain ⟨object, rfl, -, fields⟩ := (Pin.decode_eq_ok_iff ..).1 decoded
  have once := ((Json.distinctKeys_object_iff object).1 distinct).1
  have names := congrArg (List.map Prod.fst) fields.attributes
  rw [List.map_map] at names
  show (pin.attributes.map (Prod.fst ∘ fun entry => (entry.key, entry.value))).Nodup
  rw [names]
  exact once.sublist (List.filter_sublist.map Prod.fst)

end Pin

/-- What holds of whatever the items of a sequence give holds of all results. -/
theorem EachGives.forall_mem {ε α β : Type} {step : Nat → α → Except ε β} {position : Nat}
    {items : List α} {results : List β} (gives : EachGives step position items results)
    {such : β → Prop}
    (each : ∀ item ∈ items, ∀ position result, step position item = .ok result → such result) :
    ∀ result ∈ results, such result := by
  have related := (List.forall₂_and_left _ _).2 ⟨each, gives.unplaced⟩
  have such : List.Forall₂ (fun _ result => True ∧ such result) items results := by
    refine related.imp ?_
    rintro item result ⟨holds, position, given⟩
    exact ⟨trivial, holds position result given⟩
  exact (forall₂_and_right such).2

section Levels

variable {place : Location} {value : Json} (distinct : value.DistinctKeys)

include distinct

theorem PinGroup.pins_decoded {device : String} {group : PinGroup}
    (decoded : (PinGroup.decode device place value).result = .ok (some group)) :
    ∀ pin ∈ group.pins, pin.IsDecoded := by
  obtain ⟨object, kindName, rfl, -, ⟨-, missing⟩ | ⟨kind, same, -, isGroup, isResult⟩⟩ :=
    (PinGroup.decode_eq_ok_iff ..).1 decoded
  · cases missing
  · cases isResult
    obtain ⟨items, found, arePins, -, -⟩ := (PinGroup.decodePins_eq_ok_iff ..).1 isGroup
    have each := (Json.distinctKeys_array_iff items).1 (distinct.of_find? found)
    exact arePins.forall_mem fun item isItem _ _ isPin => ⟨_, _, _, item, each item isItem, isPin⟩

theorem Device.pins_decoded {device : Device}
    (decoded : (Device.decode place value).result = .ok device) :
    ∀ group ∈ device.groups, ∀ pin ∈ group.pins, pin.IsDecoded := by
  obtain ⟨object, items, results, rfl, -, found, areGroups, kept, -⟩ :=
    (Device.decode_eq_ok_iff ..).1 decoded
  have each := (Json.distinctKeys_array_iff items).1 (distinct.of_find? found)
  have groups : ∀ result ∈ results, ∀ group ∈ result, ∀ pin ∈ group.pins, pin.IsDecoded := by
    refine areGroups.forall_mem fun item isItem _ result given group isGroup => ?_
    cases isGroup
    exact PinGroup.pins_decoded (each item isItem) given
  intro group member
  rw [kept, List.mem_filterMap] at member
  obtain ⟨result, isResult, isGroup⟩ := member
  exact groups result isResult group isGroup

theorem Manifest.pins_decoded {manifest : Manifest}
    (decoded : (Manifest.decode place value).result = .ok manifest) :
    ∀ device ∈ manifest.devices, ∀ group ∈ device.groups, ∀ pin ∈ group.pins, pin.IsDecoded := by
  obtain ⟨object, items, rfl, found, areDevices⟩ := (Manifest.decode_eq_ok_iff ..).1 decoded
  have each := (Json.distinctKeys_array_iff items).1 (distinct.of_find? found)
  exact areDevices.forall_mem fun item isItem _ _ => Device.pins_decoded (each item isItem)

end Levels

namespace Pin

variable {pin : Pin}

/-- Where no key is repeated, each attribute is found under its key. -/
theorem attributeAt?_of_mem (distinct : pin.DistinctAttributes) {entry : Attribute}
    (member : entry ∈ pin.attributes) : pin.attributeAt? entry.key = some entry.value := by
  obtain ⟨front, back, split⟩ := List.append_of_mem member
  have absent : ∀ other ∈ front, other.key ≠ entry.key := by
    intro other isOther
    rw [DistinctAttributes, split, List.map_append, List.nodup_append] at distinct
    exact distinct.2.2 _ (List.mem_map_of_mem isOther) _ List.mem_cons_self
  have found : pin.attributes.find? (fun other => other.key == entry.key) = some entry :=
    List.find?_eq_some_iff_append.2 ⟨beq_self_eq_true _, front, back, split, by simpa using absent⟩
  rw [attributeAt?, found, Option.map_some]

theorem exists_of_attributeAt? {key : String} {value : Json}
    (found : pin.attributeAt? key = some value) :
    ∃ front entry back, pin.attributes = front ++ entry :: back ∧ entry.key = key ∧
      entry.value = value := by
  obtain ⟨entry, isEntry, rfl⟩ := Option.map_eq_some_iff.1 found
  obtain ⟨same, front, back, split, -⟩ := List.find?_eq_some_iff_append.1 isEntry
  exact ⟨front, entry, back, split, eq_of_beq same, rfl⟩

theorem attributeAt?_eq_some_iff (distinct : pin.DistinctAttributes) (key : String) (value : Json) :
    pin.attributeAt? key = some value ↔ ⟨key, value⟩ ∈ pin.attributes := by
  constructor
  · intro found
    obtain ⟨front, entry, back, split, rfl, rfl⟩ := exists_of_attributeAt? found
    rw [split]
    exact List.mem_append_right _ List.mem_cons_self
  · exact attributeAt?_of_mem distinct

/-- What the pin says of its interrupt, as an integer. -/
def interruptTold? (pin : Pin) : Option Int :=
  (pin.attributeAt? "interrupt").bind Json.integerLike?

theorem known_of_key {entry : Attribute} (same : entry.key = "interrupt") : entry.Known :=
  ⟨.interrupt, same.symm⟩

theorem interruptTold?_eq_none_iff (distinct : pin.DistinctAttributes) :
    pin.interruptTold? = none ↔ ∀ entry ∈ usable pin.attributes, entry.key ≠ "interrupt" := by
  constructor
  · intro silent entry member same
    obtain ⟨isAttribute, isUsable⟩ := List.mem_filter.1 member
    obtain ⟨-, value, isValue⟩ := of_decide_eq_true isUsable
    rw [interruptTold?, ← same, attributeAt?_of_mem distinct isAttribute, Option.bind_some,
      isValue] at silent
    cases silent
  · intro absent
    cases told : pin.interruptTold? with
    | none => rfl
    | some value =>
        obtain ⟨found, isFound, isValue⟩ := Option.bind_eq_some_iff.1 told
        obtain ⟨front, entry, back, split, same, rfl⟩ := exists_of_attributeAt? isFound
        have member : entry ∈ usable pin.attributes := by
          refine List.mem_filter.2 ⟨?_, decide_eq_true ⟨known_of_key same, value, isValue⟩⟩
          rw [split]
          exact List.mem_append_right _ List.mem_cons_self
        exact absurd same (absent entry member)

end Pin

/-- Attributes of distinct keys set distinct parameters. -/
theorem Accounts.nodup {pin : String} {entries : List Attribute} {settings : List Setting}
    {warnings : List Warning} (accounts : Accounts pin entries settings warnings)
    (once : (entries.map Attribute.key).Nodup) : (settings.map Prod.fst).Nodup := by
  apply List.Nodup.of_map Parameter.key
  rw [List.map_map]
  show (settings.map fun setting => setting.1.key).Nodup
  rw [accounts.map_key]
  exact once.sublist (List.filter_sublist.map Attribute.key)

/-- What the settings of a pin say of its parameters, each of which they set once at most. -/
structure SetOnce (kind : PinKind) (pin : Pin) (settings : List Setting) : Prop where
  once : (settings.map Prod.fst).Nodup
  /-- An interrupt that the pin tells of stands where its attribute does. -/
  told : ∀ value, pin.interruptTold? = some value →
    ∃ front entry back before after, pin.attributes = front ++ entry :: back ∧
      entry.key = "interrupt" ∧ entry.value.integerLike? = some value ∧
      settings = before ++ (.interrupt, value) :: after ∧
      List.Forall₂ Attribute.Gives (usable front) before ∧
      List.Forall₂ Attribute.Gives (usable back) after
  /-- A timer that tells of none has it as its last setting. -/
  silent : kind = .timers → pin.interruptTold? = none →
    ∃ given, settings = given ++ [(.interrupt, 1)] ∧
      List.Forall₂ Attribute.Gives (usable pin.attributes) given
  timers : kind = .timers → (settings.map Prod.fst).count .interrupt = 1
  others : kind ≠ .timers →
    (.interrupt ∈ settings.map Prod.fst ↔ ∃ value, pin.interruptTold? = some value)

namespace Settings

variable {kind : PinKind} {pin : Pin}

theorem implied_eq_nil (other : kind ≠ .timers) : implied kind pin = [] :=
  if_neg fun both => other both.1

section Distinct

variable (distinct : pin.DistinctAttributes)

include distinct

theorem implied_of_told {value : Int} (told : pin.interruptTold? = some value) :
    implied kind pin = [] := by
  refine if_neg fun both => ?_
  rw [(Pin.interruptTold?_eq_none_iff distinct).2 both.2] at told
  cases told

theorem implied_of_silent (silent : pin.interruptTold? = none) :
    implied .timers pin = [(.interrupt, 1)] :=
  if_pos ⟨rfl, (Pin.interruptTold?_eq_none_iff distinct).1 silent⟩

/-- The attributes of a pin set its interrupt just if one tells of it. -/
theorem interrupt_mem_iff :
    Parameter.interrupt ∈ (ofAttributes pin).list.map Prod.fst ↔
      ∃ value, pin.interruptTold? = some value := by
  rw [(accounts_ofAttributes pin).mem_iff, ← not_iff_not]
  simp only [not_exists, ← Option.eq_none_iff_forall_ne_some,
    Pin.interruptTold?_eq_none_iff distinct, not_and]
  rfl

theorem nodup_ofPin : ((ofPin kind pin).list.map Prod.fst).Nodup := by
  have once := (accounts_ofAttributes pin).nodup distinct
  rw [list_ofPin, List.map_append]
  by_cases both : kind = .timers ∧ pin.interruptTold? = none
  · obtain ⟨rfl, silent⟩ := both
    have absent : Parameter.interrupt ∉ (ofAttributes pin).list.map Prod.fst := by
      rw [interrupt_mem_iff distinct, silent]
      rintro ⟨_, ⟨⟩⟩
    rw [implied_of_silent distinct silent, List.map_singleton, ← List.concat_eq_append]
    exact once.concat absent
  · have nothing : implied kind pin = [] := by
      rw [not_and_or] at both
      rcases both with other | told
      · exact implied_eq_nil other
      · obtain ⟨value, isValue⟩ := Option.ne_none_iff_exists'.1 told
        exact implied_of_told distinct isValue
    rwa [nothing, List.map_nil, List.append_nil]

/-- The setting of an interrupt that is told of has the settings of the attributes in front of it in
front, and those of the others behind. -/
theorem split_of_told {value : Int} (told : pin.interruptTold? = some value) :
    ∃ front entry back before after, pin.attributes = front ++ entry :: back ∧
      entry.key = "interrupt" ∧ entry.value.integerLike? = some value ∧
      (ofPin kind pin).list = before ++ (.interrupt, value) :: after ∧
      List.Forall₂ Attribute.Gives (usable front) before ∧
      List.Forall₂ Attribute.Gives (usable back) after := by
  obtain ⟨found, isFound, isValue⟩ := Option.bind_eq_some_iff.1 told
  obtain ⟨front, entry, back, split, same, rfl⟩ := Pin.exists_of_attributeAt? isFound
  have set : pin.setting? entry = some (.interrupt, value) := by
    have known : Parameter.ofKey? entry.key = some .interrupt := by
      rw [same]
      exact Parameter.ofKey?_key .interrupt
    simp only [Pin.setting?, Attribute.setting, known, isValue]
    rfl
  refine ⟨front, entry, back, _, _, split, same, isValue, ?_,
    (pin.accounts_filterMap front).given, (pin.accounts_filterMap back).given⟩
  rw [list_ofPin, implied_of_told distinct told, List.append_nil, ofAttributes, split,
    List.filterMap_append, List.filterMap_cons_some set]

/-- A parameter beside the interrupt has the value that its attribute stands for. -/
theorem find?_ofPin (parameter : Parameter) (other : parameter ≠ .interrupt) :
    Entries.find? parameter (ofPin kind pin).list =
      ((pin.attributeAt? parameter.key).bind Json.integerLike?).map parameter.scale := by
  have once : (keys (ofPin kind pin).list).Nodup := nodup_ofPin distinct
  have notImplied : ∀ value, (parameter, value) ∉ implied kind pin := by
    intro value member
    unfold implied at member
    split at member
    · cases List.mem_singleton.1 member
      exact other rfl
    · cases member
  -- Neither side repeats a key, so both are found by what they hold.
  ext value
  rw [Entries.find?_eq_some_iff _ _ _ once, list_ofPin, List.mem_append,
    or_iff_left (notImplied value), ofAttributes, List.mem_filterMap]
  simp only [Pin.setting?_eq_some_iff, Option.map_eq_some_iff, Option.bind_eq_some_iff,
    Pin.attributeAt?_eq_some_iff distinct]
  constructor
  · rintro ⟨⟨key, found⟩, member, rfl, number, integer, scaled⟩
    exact ⟨number, ⟨found, member, integer⟩, scaled⟩
  · rintro ⟨number, ⟨found, member, integer⟩, scaled⟩
    exact ⟨_, member, rfl, number, integer, scaled⟩

theorem setOnce_ofPin : SetOnce kind pin (ofPin kind pin).list := by
  have once : ((ofPin kind pin).list.map Prod.fst).Nodup := nodup_ofPin distinct
  constructor
  case once => exact once
  case told => exact fun value => split_of_told distinct
  case silent =>
    rintro rfl silent
    refine ⟨_, ?_, (accounts_ofAttributes pin).given⟩
    rw [list_ofPin, implied_of_silent distinct silent]
  case timers =>
    rintro rfl
    have always := (interrupts_iff _).1 (interrupts_ofPin_timers pin)
    exact List.count_eq_one_of_mem once always
  case others =>
    intro other
    rw [list_ofPin, implied_eq_nil other, List.append_nil]
    exact interrupt_mem_iff distinct

end Distinct

end Settings

/-- No pin of a manifest sets a parameter twice. A timer sets its interrupt, at the place of its
attribute or else at the end, and another pin sets it just if it tells of it. -/
theorem parameters_set_once (place : Location) (root : Json) (manifest : Manifest)
    (distinct : root.DistinctKeys)
    (decoded : (Manifest.decode place root).result = .ok manifest) :
    ∀ device ∈ manifest.devices, ∀ group ∈ device.groups, ∀ pin ∈ group.pins,
      SetOnce group.kind pin (Settings.ofPin group.kind pin).list := by
  intro device isDevice group isGroup pin isPin
  have isDecoded := Manifest.pins_decoded distinct decoded device isDevice group isGroup pin isPin
  exact Settings.setOnce_ofPin isDecoded.distinct

/-- A document with a timer that tells of its interrupt, one that does not, and a button. -/
def documentOfTimers : Json :=
  .object [("io", .array [.object [("groups", .array [
    .object [("name", .string "timers"), ("pins", .array [
      .object [("frequency", .string "50"), ("interrupt", .bool false), ("name", .string "tick"),
        ("timer", .string " 1 ")],
      .object [("interrupt", .string "often"), ("name", .string "tock"), ("colour", .null),
        ("speed", .string "-250")]])],
    .object [("name", .string "inputs"), ("pins", .array [
      .object [("name", .string "button"), ("interrupt", .null)]])]])]])]

def manifestOfTimers : Manifest :=
  let device := ((Location.root "io.json").key "io").index 0
  let group (position : Nat) := (device.key "groups").index position
  let pin (group : Location) (position : Nat) (name : String) (attributes : List Attribute) : Pin :=
    ⟨name, 0, 0, none, none, none, attributes, (group.key "pins").index position⟩
  ⟨[⟨"ioblock", "pins", [
    ⟨.timers, [
      pin (group 0) 0 "tick"
        [⟨"frequency", .string "50"⟩, ⟨"interrupt", .bool false⟩, ⟨"timer", .string " 1 "⟩],
      pin (group 0) 1 "tock"
        [⟨"interrupt", .string "often"⟩, ⟨"colour", .null⟩, ⟨"speed", .string "-250"⟩]], group 0⟩,
    ⟨.inputs, [pin (group 1) 0 "button" [⟨"interrupt", .null⟩]], group 1⟩], device⟩]⟩

theorem parameters_set_once_documentOfTimers :
    documentOfTimers.DistinctKeys ∧
    (Manifest.decode (.root "io.json") documentOfTimers).result = .ok manifestOfTimers ∧
    ∀ device ∈ manifestOfTimers.devices, ∀ group ∈ device.groups, ∀ pin ∈ group.pins,
      SetOnce group.kind pin (Settings.ofPin group.kind pin).list := by
  have distinct : documentOfTimers.DistinctKeys := by
    simp [documentOfTimers, keys]
  have decoded : (Manifest.decode (.root "io.json") documentOfTimers).result =
      .ok manifestOfTimers := by
    rfl
  exact ⟨distinct, decoded, parameters_set_once _ _ _ distinct decoded⟩

end PinTable
