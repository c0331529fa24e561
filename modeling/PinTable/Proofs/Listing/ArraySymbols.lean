import PinTable.Proofs.DeviceTable
import PinTable.Proofs.Listing.ArrayText
import PinTable.Proofs.Listing.Blocks
import PinTable.Proofs.Listing.BusRecords

set_option autoImplicit false

namespace PinTable

namespace QualifiedPin

/-- The base name of another pin goes on behind that of a pin, and as the symbols of the pin do. -/
def Clashes (pin other : QualifiedPin) : Prop :=
  ∃ more, other.base = pin.base ++ "_" ++ more ∧
    pin.kind.name ++ "_" ++ pin.name = more ++ "_" ++ other.kind.name ++ "_" ++ other.name

theorem clashes_iff (pin other : QualifiedPin) : pin.Clashes other ↔
    ∃ more ∈ Reading.after? (pin.base ++ "_") other.base,
      pin.kind.name ++ "_" ++ pin.name = more ++ "_" ++ other.kind.name ++ "_" ++ other.name := by
  constructor
  · rintro ⟨more, base, rest⟩
    refine ⟨more, ?_, rest⟩
    rw [base, Reading.after?_append]
    rfl
  · rintro ⟨more, found, rest⟩
    exact ⟨more, Reading.eq_append_of_after? _ _ _ found, rest⟩

instance (pin other : QualifiedPin) : Decidable (pin.Clashes other) :=
  decidable_of_iff' _ (clashes_iff pin other)

theorem Clashes.ne {pin other : QualifiedPin} (clashes : pin.Clashes other) :
    pin.base ≠ other.base := by
  obtain ⟨more, base, _⟩ := clashes
  intro same
  have lengths := congrArg String.length (same.trans base)
  simp only [String.length_append] at lengths
  have one : "_".length = 1 := rfl
  omega

theorem Clashes.joined_eq {pin other : QualifiedPin} (clashes : pin.Clashes other) :
    pin.joined = other.joined := by
  obtain ⟨more, base, rest⟩ := clashes
  have front : pin.joined = pin.base ++ "_" ++ (pin.kind.name ++ "_" ++ pin.name) := by
    simp only [joined, String.append_assoc]
  rw [front, rest, joined, base]
  simp only [String.append_assoc]

end QualifiedPin

/-- No kind's name and underscore start those of another. -/
theorem PinKind.eq_of_front : ∀ one ∈ all, ∀ other ∈ all,
    (one.name ++ "_").toList <+: (other.name ++ "_").toList → one = other := by
  decide

/-- Behind a base name, kind and pin name are told apart. -/
theorem PinKind.name_append_inj {kind other : PinKind} {name also : String}
    (same : kind.name ++ "_" ++ name = other.name ++ "_" ++ also) : kind = other ∧ name = also := by
  have listed := congrArg String.toList same
  rw [String.toList_append, String.toList_append (s := other.name ++ "_")] at listed
  have front : (kind.name ++ "_").toList <+: (other.name ++ "_").toList ++ also.toList :=
    ⟨name.toList, listed⟩
  have kinds : kind = other := by
    rcases List.prefix_or_prefix_of_prefix front (List.prefix_append _ _) with shorter | longer
    · exact eq_of_front _ (mem_all kind) _ (mem_all other) shorter
    · exact (eq_of_front _ (mem_all other) _ (mem_all kind) longer).symm
  subst kinds
  exact ⟨rfl, (String.append_right_inj _).1 same⟩

namespace QualifiedPin

/-- The kind and the name of a pin, as its symbols join them. -/
def ending (pin : QualifiedPin) : String := pin.kind.name ++ "_" ++ pin.name

theorem toList_joined (pin : QualifiedPin) :
    pin.joined.toList = pin.base.toList ++ '_' :: pin.ending.toList := by
  simp [joined, ending, String.toList_append]

/-- Symbols of pins are alike where one base name starts with the other: the names are the same, or
what is left of the longer one stands in front of the other symbol's ending. -/
theorem eq_or_clashes (pin other : QualifiedPin) (left : List Char)
    (base : other.base.toList = pin.base.toList ++ left)
    (endings : '_' :: pin.ending.toList = left ++ '_' :: other.ending.toList) :
    pin = other ∨ pin.Clashes other := by
  cases left with
  | nil =>
      have bases : pin.base = other.base :=
        String.toList_inj.1 (base.trans (List.append_nil _)).symm
      obtain ⟨kinds, names⟩ := PinKind.name_append_inj (String.toList_inj.1 (List.cons.inj endings).2)
      obtain ⟨pinBase, kind, name⟩ := pin
      obtain ⟨otherBase, otherKind, otherName⟩ := other
      subst bases kinds names
      exact Or.inl rfl
  | cons c more =>
      obtain ⟨rfl, rest⟩ := List.cons.inj endings
      refine Or.inr ⟨String.ofList more, ?_, ?_⟩
      · apply String.toList_inj.1
        simpa [String.toList_append] using base
      · apply String.toList_inj.1
        simpa [ending, String.toList_append] using rest

theorem joined_eq_iff (pin other : QualifiedPin) :
    pin.joined = other.joined ↔ pin = other ∨ pin.Clashes other ∨ other.Clashes pin := by
  constructor
  · intro same
    have listed := congrArg String.toList same
    rw [toList_joined, toList_joined, List.append_eq_append_iff] at listed
    rcases listed with ⟨left, base, endings⟩ | ⟨left, base, endings⟩
    · exact (eq_or_clashes pin other left base endings).imp_right Or.inl
    · rcases eq_or_clashes other pin left base endings with equal | clashes
      · exact Or.inl equal.symm
      · exact Or.inr (Or.inr clashes)
  · rintro (rfl | clashes | clashes)
    · rfl
    · exact clashes.joined_eq
    · exact clashes.joined_eq.symm

theorem settingsArray_eq_iff (pin other : QualifiedPin) :
    pin.settingsArray = other.settingsArray ↔
      pin = other ∨ pin.Clashes other ∨ other.Clashes pin := by
  rw [settingsArray, settingsArray, String.append_left_inj, joined_eq_iff]

end QualifiedPin

namespace Device

/-- The pins of devices, in the order of declaration. -/
def pinsOf (devices : List Device) : List QualifiedPin :=
  devices.flatMap fun device => device.declared.map Declared.pin

/-- The devices have base names of their own, and each device has a name of its own for each of its
pins. All of them are identifiers. -/
structure DistinctlyNamed (devices : List Device) : Prop where
  bases : ∀ device ∈ devices, Reading.isIdentifier device.base = true
  apart : (devices.map Device.base).Nodup
  names : ∀ device ∈ devices, ∀ pin ∈ device.declared, Reading.isIdentifier pin.pin.name = true
  once : ∀ device ∈ devices, (device.declared.map fun pin => pin.pin.name).Nodup

theorem base_of_mem_declared (device : Device) (pin : Declared) (member : pin ∈ device.declared) :
    pin.pin.base = device.base := by
  obtain ⟨group, _, isPin⟩ := List.mem_flatMap.1 member
  obtain ⟨declared, _, rfl⟩ := List.mem_map.1 isPin
  rfl

theorem nodup_pinsOf {devices : List Device} (named : DistinctlyNamed devices) :
    (pinsOf devices).Nodup := by
  rw [pinsOf, List.nodup_flatMap]
  constructor
  · intro device isDevice
    have once : ((device.declared.map Declared.pin).map QualifiedPin.name).Nodup := by
      rw [List.map_map]
      exact named.once device isDevice
    exact once.of_map
  · have apart := List.pairwise_map.1 named.apart
    refine apart.imp ?_
    intro one other different pin isOne isOther
    obtain ⟨first, isFirst, rfl⟩ := List.mem_map.1 isOne
    obtain ⟨second, isSecond, same⟩ := List.mem_map.1 isOther
    have base := base_of_mem_declared other second isSecond
    rw [same, base_of_mem_declared one first isFirst] at base
    exact different base

end Device

namespace Listing

open Reading

/-- The arrays of settings among the lines of a source, in order. -/
def arraysAmong (lines : List String) : List SourceRecord := lines.filterMap array?

section Device

variable {signals : SignalIndex}

theorem symbols_deviceSource {device : Device} (base : isIdentifier device.base = true)
    (names : ∀ pin ∈ device.declared, isIdentifier pin.pin.name = true) :
    (arraysAmong (deviceBlock signals device).source).map SourceRecord.symbol =
      (device.declared.map Declared.pin).map QualifiedPin.settingsArray := by
  have pins : (DeviceTable.ofDevice signals device).rows.map Row.pin =
      device.declared.map Declared.pin := by
    have linked := congrArg (List.map Prod.fst) (DeviceTable.links_ofDevice signals device)
    rwa [List.map_map, Declared.map_fst_linksAfter] at linked
  have worded : ∀ row ∈ (DeviceTable.ofDevice signals device).rows,
      Word row.pin.base ∧ Word row.pin.name := by
    intro row member
    have isPin : row.pin ∈ device.declared.map Declared.pin := by
      rw [← pins]
      exact List.mem_map_of_mem member
    obtain ⟨pin, isDeclared, same⟩ := List.mem_map.1 isPin
    rw [← same, Device.base_of_mem_declared device pin isDeclared]
    exact ⟨word_of_isIdentifier _ base, word_of_isIdentifier _ (names pin isDeclared)⟩
  have arrays := arrays_deviceSource (DeviceTable.ofDevice signals device) worded
  rw [← pins, arraysAmong, deviceBlock, arrays, List.map_map, List.map_map]
  rfl

theorem arraysAmong_ofManifests (guard : String) (signals : SignalIndex)
    (manifests : List Manifest) :
    arraysAmong (ofManifests guard signals manifests).source =
      (manifests.flatMap Manifest.devices).flatMap fun device =>
        arraysAmong (deviceBlock signals device).source := by
  have opening : (beginning guard).source.filterMap array? = [] := by
    apply filterMap_array?_eq_nil
    show ∀ line ∈ [markerLine, "#include \"pins.h\""], line.toList.head? ≠ some 's'
    decide
  have buses : ∀ wiring, (ending wiring).source.filterMap array? = [] := fun wiring =>
    filterMap_array?_eq_nil _ (busSource_start wiring 's' (by decide))
  rw [ofManifests_eq]
  simp only [arraysAmong, busBlock, Block.source_append, Block.reporting, Block.joined,
    List.filterMap_append, List.filterMap_flatMap, List.flatMap_map, opening, buses,
    List.nil_append, List.append_nil]

/-- The arrays that manifests define are those of their pins, in the same order. -/
theorem symbols_ofManifests (guard : String) (manifests : List Manifest)
    (named : Device.DistinctlyNamed (manifests.flatMap Manifest.devices)) :
    (arraysAmong (ofManifests guard signals manifests).source).map SourceRecord.symbol =
      (Device.pinsOf (manifests.flatMap Manifest.devices)).map QualifiedPin.settingsArray := by
  rw [arraysAmong_ofManifests, List.map_flatMap, Device.pinsOf, List.map_flatMap]
  apply List.flatMap_congr
  intro device isDevice
  exact symbols_deviceSource (named.bases device isDevice) (named.names device isDevice)

end Device

/-- The arrays of settings that some manifests define have different symbols exactly if no two of
their pins clash. -/
theorem array_symbols_distinct_iff (guard : String) (signals : SignalIndex)
    (manifests : List Manifest)
    (named : Device.DistinctlyNamed (manifests.flatMap Manifest.devices)) :
    ((arraysAmong (ofManifests guard signals manifests).source).map SourceRecord.symbol).Nodup ↔
      ∀ one ∈ Device.pinsOf (manifests.flatMap Manifest.devices),
        ∀ other ∈ Device.pinsOf (manifests.flatMap Manifest.devices), ¬ one.Clashes other := by
  rw [symbols_ofManifests guard manifests named, List.nodup_map_iff_inj_on (Device.nodup_pinsOf named)]
  constructor
  · intro distinct one isOne other isOther clashes
    have same := (one.settingsArray_eq_iff other).2 (Or.inr (Or.inl clashes))
    exact clashes.ne (congrArg QualifiedPin.base (distinct one isOne other isOther same))
  · intro apart one isOne other isOther same
    rcases (one.settingsArray_eq_iff other).1 same with equal | clashes | clashes
    · exact equal
    · exact absurd clashes (apart one isOne other isOther)
    · exact absurd clashes (apart other isOther one isOne)

/-- Two devices with an input each. The base name of the second one goes on as the symbols of the
first do. -/
def devicesOfInputs (first second : String) : List Device :=
  let device (base name : String) : Device :=
    ⟨"ioblock", base, [⟨.inputs, [⟨name, 0, 0, none, none, none, [], .root "io.json"⟩],
      .root "io.json"⟩], .root "io.json"⟩
  [device "a" first, device "a_inputs" second]

theorem array_symbols_distinct_devicesOfInputs :
    Device.DistinctlyNamed ([⟨devicesOfInputs "y" "x"⟩].flatMap Manifest.devices) ∧
    ((arraysAmong (ofManifests "IOC_IO_INCLUDED" .empty [⟨devicesOfInputs "y" "x"⟩]).source).map
      SourceRecord.symbol).Nodup := by
  have named : Device.DistinctlyNamed ([⟨devicesOfInputs "y" "x"⟩].flatMap Manifest.devices) :=
    ⟨by decide, by decide, by decide, by decide⟩
  exact ⟨named, (array_symbols_distinct_iff "IOC_IO_INCLUDED" .empty _ named).2 (by decide)⟩

/-- Both arrays are `a_inputs_inputs_x_prm`. -/
theorem array_symbols_shared :
    Device.DistinctlyNamed ([⟨devicesOfInputs "inputs_x" "x"⟩].flatMap Manifest.devices) ∧
    ¬ ((arraysAmong (ofManifests "IOC_IO_INCLUDED" .empty
      [⟨devicesOfInputs "inputs_x" "x"⟩]).source).map SourceRecord.symbol).Nodup := by
  have named :
      Device.DistinctlyNamed ([⟨devicesOfInputs "inputs_x" "x"⟩].flatMap Manifest.devices) :=
    ⟨by decide, by decide, by decide, by decide⟩
  refine ⟨named, ?_⟩
  rw [symbols_ofManifests "IOC_IO_INCLUDED" _ named]
  decide

end Listing

end PinTable
