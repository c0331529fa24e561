import Mathlib.Data.List.Perm.Basic
import PinTable.Proofs.Listing.ArraySymbols
import PinTable.Proofs.Listing.LayoutText

set_option autoImplicit false

namespace PinTable

namespace Declared

/-- The tag of a pin, if no pin before it has the tag. -/
def newTagAfter (earlier : List Declared) (pin : Declared) : Option String :=
  if pin.tag ∈ earlier.map Declared.tag then none else pin.tag

/-- Pins in order, each with its tag if that is new. -/
def newTagsAfter (earlier : List Declared) : List Declared → List (QualifiedPin × Option String)
  | [] => []
  | pin :: rest => (pin.pin, newTagAfter earlier pin) :: newTagsAfter (earlier ++ [pin]) rest

theorem newTagsAfter_append (earlier first second : List Declared) :
    newTagsAfter earlier (first ++ second) =
      newTagsAfter earlier first ++ newTagsAfter (earlier ++ first) second := by
  induction first generalizing earlier with
  | nil => rw [List.nil_append, List.append_nil]; rfl
  | cons pin rest ih =>
      rw [List.cons_append, newTagsAfter, ih, List.append_assoc]
      rfl

theorem map_fst_newTagsAfter (earlier declared : List Declared) :
    (newTagsAfter earlier declared).map Prod.fst = declared.map Declared.pin := by
  induction declared generalizing earlier with
  | nil => rfl
  | cons pin rest ih => rw [newTagsAfter, List.map_cons, ih, List.map_cons]

/-- Each tag is new once. -/
theorem filterMap_snd_newTagsAfter (declared : List Declared) :
    (newTagsAfter [] declared).filterMap Prod.snd =
      (declared.filterMap Declared.tag).eraseDups := by
  induction declared using List.reverseRecOn with
  | nil => rfl
  | append_singleton earlier pin ih =>
      rw [newTagsAfter_append, List.filterMap_append, ih, List.nil_append, List.filterMap_append]
      cases found : pin.tag with
      | none => simp [newTagsAfter, newTagAfter, found]
      | some tag =>
          have known : some tag ∈ earlier.map Declared.tag ↔
              tag ∈ earlier.filterMap Declared.tag := by
            simp
          rw [List.filterMap_cons_some found, List.filterMap_nil, eraseDups_concat]
          by_cases occurs : tag ∈ earlier.filterMap Declared.tag
          · simp [newTagsAfter, newTagAfter, found, known, occurs]
          · simp [newTagsAfter, newTagAfter, found, known, occurs]

end Declared

namespace DeviceTable

open Declared

/-- Linking a pin tells whether its tag is new. -/
theorem newTag_rowOf (signals : SignalIndex) (base : String) (kind : PinKind) (tags : TagChains)
    (earlier : List Declared) (follows : tags.Follows (tagged earlier)) (pin : Pin) :
    (rowOf signals base kind pin (linkPin base kind tags pin).2).newTag =
      newTagAfter earlier (ofPin base kind pin) := by
  unfold linkPin rowOf newTagAfter ofPin
  cases found : pin.tag with
  | none => simp
  | some tag =>
      have answer := (follows.link tag ⟨base, kind, pin.name⟩).2
      have fresh : (TagChains.answerAfter (tagged earlier) tag).first = true ↔
          some tag ∉ earlier.map Declared.tag := by
        rw [TagChains.answerAfter, List.isEmpty_iff, itemsOf_tagged, pinsWith, List.map_eq_nil_iff,
          List.filter_eq_nil_iff]
        simp
      show (if (some (tags.link tag ⟨base, kind, pin.name⟩).2).any Linked.first then some tag
        else none) = _
      rw [Option.any_some, answer]
      by_cases known : some tag ∈ earlier.map Declared.tag
      · rw [if_pos known, if_neg fun first => fresh.1 first known]
      · rw [if_neg known, if_pos (fresh.2 known)]

theorem newTags_rowsOf (signals : SignalIndex) (base : String) (kind : PinKind) (pins : List Pin)
    (tags : TagChains) (earlier : List Declared) (follows : tags.Follows (tagged earlier)) :
    (rowsOf signals base kind tags pins).1.map (fun row => (row.pin, row.newTag)) =
      newTagsAfter earlier (pins.map (ofPin base kind)) := by
  induction pins generalizing tags earlier with
  | nil => rfl
  | cons pin rest ih =>
      have after := (linkPin_follows base kind tags earlier follows pin).1
      rw [List.map_cons, newTagsAfter, ← ih _ _ after,
        ← newTag_rowOf signals base kind tags earlier follows pin]
      rfl

theorem newTags_groupsOf (signals : SignalIndex) (base : String) (groups : List PinGroup)
    (tags : TagChains) (earlier : List Declared) (follows : tags.Follows (tagged earlier)) :
    ((groupsOf signals base tags groups).1.flatMap GroupTable.rows).map
        (fun row => (row.pin, row.newTag)) =
      newTagsAfter earlier
        (groups.flatMap fun group => group.pins.map (ofPin base group.kind)) := by
  induction groups generalizing tags earlier with
  | nil => rfl
  | cons group rest ih =>
      have after := (rowsOf_follows signals base group.kind group.pins tags earlier follows).1
      rw [List.flatMap_cons, newTagsAfter_append, ← ih _ _ after,
        ← newTags_rowsOf signals base group.kind group.pins tags earlier follows,
        ← List.map_append]
      rfl

end DeviceTable

namespace Device

/-- The tags of a device, each once. -/
def tags (device : Device) : List String := (device.declared.filterMap Declared.tag).eraseDups

/-- The constants of a device: those of its pins, and those of its tags. -/
def nameConstants (device : Device) : List NameConstant :=
  device.declared.map (fun pin => NameConstant.ofPin pin.pin) ++
    device.tags.map (NameConstant.ofTag device.base)

end Device

/-- The constants of a pin and of its tag, if that is new. -/
def constantsOf (entry : QualifiedPin × Option String) : List NameConstant :=
  NameConstant.ofPin entry.1 :: entry.2.toList.map (NameConstant.ofTag entry.1.base)

theorem constants_eq (row : Row) : row.constants = constantsOf (row.pin, row.newTag) := by
  unfold Row.constants constantsOf
  cases row.newTag <;> rfl

theorem constants_ofDevice (signals : SignalIndex) (device : Device) :
    (DeviceTable.ofDevice signals device).constants =
      (Declared.newTagsAfter [] device.declared).flatMap constantsOf := by
  have rows := DeviceTable.newTags_groupsOf signals device.base device.groups _ []
    TagChains.Follows.empty
  rw [DeviceTable.constants, Device.declared, ← rows, List.flatMap_map]
  exact List.flatMap_congr fun row _ => constants_eq row

/-- The constants of the table are those of the device in another order. -/
theorem perm_constants_ofDevice (signals : SignalIndex) (device : Device) :
    (DeviceTable.ofDevice signals device).constants.Perm device.nameConstants := by
  have split : ∀ entries : List (QualifiedPin × Option String),
      (∀ entry ∈ entries, entry.1.base = device.base) →
      (entries.flatMap constantsOf).Perm ((entries.map Prod.fst).map NameConstant.ofPin ++
        (entries.filterMap Prod.snd).map (NameConstant.ofTag device.base)) := by
    intro entries bases
    induction entries with
    | nil => exact List.Perm.refl _
    | cons entry rest ih =>
        obtain ⟨base, later⟩ := List.forall_mem_cons.1 bases
        obtain ⟨pin, _ | tag⟩ := entry
        · exact (ih later).cons _
        · rw [List.flatMap_cons, constantsOf, base]
          refine List.Perm.cons _ ?_
          exact ((ih later).cons _).trans List.perm_middle.symm
  have bases : ∀ entry ∈ Declared.newTagsAfter [] device.declared, entry.1.base = device.base := by
    intro entry member
    have isPin : entry.1 ∈ device.declared.map Declared.pin := by
      rw [← Declared.map_fst_newTagsAfter []]
      exact List.mem_map_of_mem member
    obtain ⟨pin, isDeclared, same⟩ := List.mem_map.1 isPin
    rw [← same, Device.base_of_mem_declared device pin isDeclared]
  have whole := split _ bases
  rw [Declared.map_fst_newTagsAfter, Declared.filterMap_snd_newTagsAfter, List.map_map] at whole
  rw [constants_ofDevice]
  exact whole

namespace Listing

open Reading

/-- The constant that a line defines. Its value is read back from the quote at the end. -/
def constant? (line : String) : Option NameConstant := do
  let rest ← after? "#define " line
  let quoted ← before? "\"" rest
  let value := String.ofList (quoted.toList.reverse.takeWhile (· != '"')).reverse
  let symbol ← before? (" \"" ++ value) quoted
  return ⟨symbol, value⟩

/-- The constants that lines define, in order. -/
def constantsAmong (lines : List String) : List NameConstant := lines.filterMap constant?

theorem constant?_text (constant : NameConstant) (plain : '"' ∉ constant.value.toList) :
    constant? constant.text = some constant := by
  have text : constant.text =
      "#define " ++ (constant.symbol ++ (" \"" ++ constant.value) ++ "\"") := by
    simp only [NameConstant.text, String.append_assoc]
  have backward : (constant.symbol ++ (" \"" ++ constant.value)).toList.reverse =
      constant.value.toList.reverse ++ '"' :: ' ' :: constant.symbol.toList.reverse := by
    simp [String.toList_append]
  have value : String.ofList ((constant.symbol ++ (" \"" ++ constant.value)).toList.reverse.takeWhile
      (· != '"')).reverse = constant.value := by
    rw [backward, takeWhile_ne_append '"' _ _ (by rwa [List.mem_reverse]), List.reverse_reverse,
      String.ofList_toList]
  rw [text]
  simp only [constant?, after?_append, before?_append, Option.bind_eq_bind, Option.bind_some, value]
  rfl

theorem constant?_eq_none (line : String) (other : line.toList.head? ≠ some '#') :
    constant? line = none := by
  rw [constant?, after?_eq_none _ line '#' rfl other]
  rfl

section Table

variable {table : DeviceTable}

/-- A base name may be anything, but what ends the line is no quote. -/
theorem constant?_typeName (base : String) : constant? (base ++ "_t;") = none := by
  unfold constant?
  cases start : after? "#define " (base ++ "_t;") with
  | none => rfl
  | some rest =>
      have unquoted : before? "\"" rest = none := by
        cases found : before? "\"" rest with
        | none => rfl
        | some front =>
            have whole : base ++ "_t;" = ("#define " ++ front) ++ "\"" := by
              rw [eq_append_of_after? _ _ _ start, eq_append_of_before? _ _ _ found,
                String.append_assoc]
            have last := congrArg (fun text => text.toList.getLast?) whole
            simp only [String.toList_append, List.getLast?_append] at last
            cases last
      rw [Option.bind_eq_bind, Option.bind_some, unquoted]
      rfl

theorem constants_deviceHeader (plain : ∀ constant ∈ table.constants, '"' ∉ constant.value.toList) :
    constantsAmong (deviceHeader table) = table.constants := by
  have others : ∀ lines : List String, (∀ line ∈ lines, line.toList.head? ≠ some '#') →
      lines.filterMap constant? = [] := by
    intro lines different
    rw [List.filterMap_eq_nil_iff]
    exact fun line member => constant?_eq_none line (different line member)
  have comment : ∀ title, (sectionComment title).filterMap constant? = [] := fun title =>
    others _ (sectionComment_start title '#' (by decide))
  have types : (typeLines table).filterMap constant? = [] := by
    have structs : ∀ lines ∈ table.groups.map structLines, ∀ line ∈ lines,
        line.toList.head? ≠ some '#' := by
      refine List.forall_mem_map.2 fun group _ line isLine => ?_
      rw [structLines_start group line isLine]
      decide
    have inside := others _ (forall_mem_aggregate (fun line => line.toList.head? ≠ some '#') _ "\x7d"
      (by decide) (by decide) (by decide) (by decide) structs)
    have opening : ["typedef struct"].filterMap constant? = [] := others _ (by decide)
    rw [typeLines, List.filterMap_append, List.filterMap_append, List.filterMap_append, comment,
      opening, inside, List.filterMap_cons_none (constant?_typeName _)]
    rfl
  have declarations : (declarationLines table).filterMap constant? = [] := by
    have exported : ∀ rest, ("extern OS_FLASH_MEM_H " ++ rest).toList.head? ≠ some '#' := by
      intro rest
      rw [head?_append_of_head? _ _ 'e' rfl]
      decide
    have top : ["extern OS_FLASH_MEM_H IoPinsHdr " ++ table.base ++ "_hdr;"].filterMap constant? =
        [] := by
      apply others
      rw [List.forall_mem_singleton, String.append_assoc]
      exact exported ("IoPinsHdr " ++ (table.base ++ "_hdr;"))
    have global : ["extern OS_FLASH_MEM_H " ++ table.base ++ "_t " ++ table.base ++ ";"].filterMap
        constant? = [] := by
      apply others
      simp only [List.forall_mem_singleton, String.append_assoc]
      exact exported _
    rw [declarationLines, List.filterMap_append, List.filterMap_append, List.filterMap_append,
      comment, comment, top, global]
    rfl
  have heads : (headsSection table (headDeclaration table.base)).filterMap constant? = [] := by
    apply others
    apply forall_mem_headsSection
    case comment => exact sectionComment_start _ '#' (by decide)
    case heads =>
      intro head _
      unfold headDeclaration
      simp only [String.append_assoc]
      rw [head?_append_of_head? _ _ 'e' rfl]
      decide
  have written : (table.constants.map NameConstant.text).filterMap constant? = table.constants :=
    (filterMap_written _ _ id _ fun constant member => constant?_text constant (plain _ member)).trans
      (List.map_id _)
  rw [constantsAmong, deviceHeader, List.filterMap_append, List.filterMap_append,
    List.filterMap_append, types, declarations, heads, constantLines, List.filterMap_append, comment,
    written]
  rfl

end Table

end Listing

/-- In upper case, too, no kind's name and underscore start those of another. -/
theorem PinKind.eq_of_upperFront : ∀ one ∈ all, ∀ other ∈ all,
    (uppercase (one.name ++ "_")).toList <+: (uppercase (other.name ++ "_")).toList →
      one = other := by
  decide +kernel

theorem PinKind.upper_append_inj {kind other : PinKind} {name also : String}
    (same : uppercase (kind.name ++ "_" ++ name) = uppercase (other.name ++ "_" ++ also)) :
    kind = other ∧ uppercase name = uppercase also := by
  rw [uppercase_append, uppercase_append (other.name ++ "_")] at same
  have listed := congrArg String.toList same
  rw [String.toList_append, String.toList_append (s := uppercase (other.name ++ "_"))] at listed
  have front : (uppercase (kind.name ++ "_")).toList <+:
      (uppercase (other.name ++ "_")).toList ++ (uppercase also).toList :=
    ⟨(uppercase name).toList, listed⟩
  have kinds : kind = other := by
    rcases List.prefix_or_prefix_of_prefix front (List.prefix_append _ _) with shorter | longer
    · exact eq_of_upperFront _ (mem_all kind) _ (mem_all other) shorter
    · exact (eq_of_upperFront _ (mem_all other) _ (mem_all kind) longer).symm
  subst kinds
  exact ⟨rfl, (String.append_right_inj _).1 same⟩

/-- What the symbol of a pin's constant has behind the base name. -/
theorem symbol_ofPin (pin : QualifiedPin) : (NameConstant.ofPin pin).symbol =
    uppercase (pin.base ++ "_") ++ uppercase (pin.kind.name ++ "_" ++ pin.name) := by
  rw [NameConstant.ofPin, QualifiedPin.joined, ← uppercase_append]
  simp only [String.append_assoc]

theorem symbol_ofTag (base tag : String) : (NameConstant.ofTag base tag).symbol =
    uppercase (base ++ "_") ++ uppercase (tag ++ "_GROUP") := by
  rw [NameConstant.ofTag, ← uppercase_append]
  simp only [String.append_assoc]

theorem symbol_ofPin_eq_iff (pin other : QualifiedPin) (bases : pin.base = other.base) :
    (NameConstant.ofPin pin).symbol = (NameConstant.ofPin other).symbol ↔
      pin.kind = other.kind ∧ uppercase pin.name = uppercase other.name := by
  rw [symbol_ofPin, symbol_ofPin, bases, String.append_right_inj]
  constructor
  · exact PinKind.upper_append_inj
  · rintro ⟨kinds, names⟩
    rw [kinds, uppercase_append, uppercase_append _ other.name, names]

theorem symbol_ofTag_eq_iff (base one other : String) :
    (NameConstant.ofTag base one).symbol = (NameConstant.ofTag base other).symbol ↔
      uppercase one = uppercase other := by
  rw [symbol_ofTag, symbol_ofTag, String.append_right_inj, uppercase_append, uppercase_append,
    String.append_left_inj]

theorem symbol_ofPin_eq_ofTag_iff (pin : QualifiedPin) (tag : String) :
    (NameConstant.ofPin pin).symbol = (NameConstant.ofTag pin.base tag).symbol ↔
      uppercase (pin.kind.name ++ "_" ++ pin.name) = uppercase (tag ++ "_GROUP") := by
  rw [symbol_ofPin, symbol_ofTag, String.append_right_inj]

namespace Device

/-- Each pin of the device has an identifier of its own for a name, and the tags are identifiers. -/
structure SinglyNamed (device : Device) : Prop where
  names : ∀ pin ∈ device.declared, Reading.isIdentifier pin.pin.name = true
  once : (device.declared.map fun pin => pin.pin.name).Nodup
  tags : ∀ tag ∈ device.tags, Reading.isIdentifier tag = true

/-- In upper case the names of pins of one kind differ, the tags differ, and no kind and name are a
tag with what stands behind tags. -/
structure ApartInUppercase (device : Device) : Prop where
  pins : ∀ one ∈ device.declared, ∀ other ∈ device.declared, one.pin.kind = other.pin.kind →
    uppercase one.pin.name = uppercase other.pin.name → one.pin.name = other.pin.name
  tags : ∀ one ∈ device.tags, ∀ other ∈ device.tags, uppercase one = uppercase other → one = other
  between : ∀ pin ∈ device.declared, ∀ tag ∈ device.tags,
    uppercase (pin.pin.kind.name ++ "_" ++ pin.pin.name) ≠ uppercase (tag ++ "_GROUP")

theorem nodup_pinSymbols_iff {device : Device} (named : device.SinglyNamed) :
    (device.declared.map fun pin => (NameConstant.ofPin pin.pin).symbol).Nodup ↔
      ∀ one ∈ device.declared, ∀ other ∈ device.declared, one.pin.kind = other.pin.kind →
        uppercase one.pin.name = uppercase other.pin.name → one.pin.name = other.pin.name := by
  have bases : ∀ one ∈ device.declared, ∀ other ∈ device.declared,
      one.pin.base = other.pin.base := fun one isOne other isOther =>
    (device.base_of_mem_declared one isOne).trans (device.base_of_mem_declared other isOther).symm
  rw [List.nodup_map_iff_inj_on named.once.of_map]
  constructor
  · intro distinct one isOne other isOther kinds names
    have same := (symbol_ofPin_eq_iff _ _ (bases one isOne other isOther)).2 ⟨kinds, names⟩
    rw [distinct one isOne other isOther same]
  · intro apart one isOne other isOther same
    obtain ⟨kinds, names⟩ := (symbol_ofPin_eq_iff _ _ (bases one isOne other isOther)).1 same
    exact List.inj_on_of_nodup_map named.once isOne isOther (apart one isOne other isOther kinds names)

theorem nodup_tagSymbols_iff (device : Device) :
    (device.tags.map fun tag => (NameConstant.ofTag device.base tag).symbol).Nodup ↔
      ∀ one ∈ device.tags, ∀ other ∈ device.tags, uppercase one = uppercase other → one = other := by
  have once : device.tags.Nodup := nodup_eraseDups _
  rw [List.nodup_map_iff_inj_on once]
  simp only [symbol_ofTag_eq_iff]

theorem nodup_nameConstants_iff {device : Device} (named : device.SinglyNamed) :
    (device.nameConstants.map NameConstant.symbol).Nodup ↔ device.ApartInUppercase := by
  have between : (∀ first ∈ device.declared.map fun pin => (NameConstant.ofPin pin.pin).symbol,
      ∀ second ∈ device.tags.map fun tag => (NameConstant.ofTag device.base tag).symbol,
        first ≠ second) ↔ ∀ pin ∈ device.declared, ∀ tag ∈ device.tags,
          uppercase (pin.pin.kind.name ++ "_" ++ pin.pin.name) ≠ uppercase (tag ++ "_GROUP") := by
    simp only [List.forall_mem_map]
    refine forall₂_congr fun pin isPin => forall₂_congr fun tag _ => not_congr ?_
    rw [← device.base_of_mem_declared pin isPin]
    exact symbol_ofPin_eq_ofTag_iff pin.pin tag
  rw [nameConstants, List.map_append, List.map_map, List.map_map, List.nodup_append]
  refine Iff.trans (and_congr (nodup_pinSymbols_iff named)
    (and_congr (nodup_tagSymbols_iff device) between)) ?_
  exact ⟨fun ⟨one, two, three⟩ => ⟨one, two, three⟩, fun apart => ⟨apart.1, apart.2, apart.3⟩⟩

end Device

namespace Listing

open Reading

/-- Where pins and tags have identifiers for names, no constant has a quote in its value. -/
theorem constants_unquoted (signals : SignalIndex) {device : Device}
    (names : ∀ pin ∈ device.declared, isIdentifier pin.pin.name = true)
    (tags : ∀ tag ∈ device.tags, isIdentifier tag = true) :
    ∀ constant ∈ (DeviceTable.ofDevice signals device).constants,
      '"' ∉ constant.value.toList := by
  intro constant member
  rcases List.mem_append.1 ((perm_constants_ofDevice signals device).mem_iff.1 member) with
    isPin | isTag
  · obtain ⟨pin, isDeclared, rfl⟩ := List.mem_map.1 isPin
    exact not_mem_of_isIdentifier _ (names pin isDeclared) '"' rfl
  · obtain ⟨tag, isHere, rfl⟩ := List.mem_map.1 isTag
    exact not_mem_of_isIdentifier _ (tags tag isHere) '"' rfl

theorem perm_constantsAmong (signals : SignalIndex) {device : Device}
    (named : device.SinglyNamed) :
    (constantsAmong (deviceBlock signals device).header).Perm device.nameConstants := by
  rw [deviceBlock, constants_deviceHeader (constants_unquoted signals named.names named.tags)]
  exact perm_constants_ofDevice signals device

/-- The header defines one constant for each pin and one for each tag, which tell the names. Their
symbols differ exactly if the names do in upper case, and no pin looks like a tag. -/
theorem constants_distinct_iff (signals : SignalIndex) (device : Device)
    (named : device.SinglyNamed) :
    (constantsAmong (deviceBlock signals device).header).Perm device.nameConstants ∧
    (((constantsAmong (deviceBlock signals device).header).map NameConstant.symbol).Nodup ↔
      device.ApartInUppercase) := by
  have order := perm_constantsAmong signals named
  refine ⟨order, ?_⟩
  rw [(order.map _).nodup_iff]
  exact Device.nodup_nameConstants_iff named

/-- A device with two inputs, the second of which has a tag. -/
def deviceOfInputs (first second tag : String) : Device :=
  ⟨"ioblock", "pins", [⟨.inputs, [⟨first, 0, 0, none, none, none, [], .root "io.json"⟩,
    ⟨second, 0, 0, some tag, none, none, [], .root "io.json"⟩], .root "io.json"⟩], .root "io.json"⟩

theorem constants_distinct_deviceOfInputs :
    (deviceOfInputs "led" "key" "front").SinglyNamed ∧
    ((constantsAmong (deviceBlock .empty (deviceOfInputs "led" "key" "front")).header).map
      NameConstant.symbol).Nodup := by
  have named : (deviceOfInputs "led" "key" "front").SinglyNamed :=
    ⟨by decide, by decide, by decide⟩
  exact ⟨named, (constants_distinct_iff .empty _ named).2.2 ⟨by decide, by decide, by decide⟩⟩

/-- Both constants are `PINS_INPUTS_LED`. -/
theorem constants_shared_deviceOfInputs :
    (deviceOfInputs "led" "LED" "front").SinglyNamed ∧
    ¬ ((constantsAmong (deviceBlock .empty (deviceOfInputs "led" "LED" "front")).header).map
      NameConstant.symbol).Nodup := by
  have named : (deviceOfInputs "led" "LED" "front").SinglyNamed :=
    ⟨by decide, by decide, by decide⟩
  refine ⟨named, ?_⟩
  rw [((perm_constantsAmong .empty named).map _).nodup_iff]
  decide

end Listing

end PinTable
