import PinTable.Proofs.Manifest.Grammar
import PinTable.Proofs.Manifest.Rearranged
import PinTable.Signal.Index

set_option autoImplicit false

namespace PinTable

open Entries (find?)
open Json (IsText IsArrayOf)

/-- A field of a record. -/
structure RecordField where
  key : String
  /-- What the field stands for where it is missing. -/
  absent : Json
  holds : Json → Prop
  /-- Values that say the same. -/
  alike : Json → Json → Prop
  holds_absent : holds absent

/-- The fields of a record in their order. -/
structure RecordLayout where
  /-- The fields that an array has to list. -/
  needed : List RecordField
  /-- The fields behind them, with which an array may end early. -/
  trailing : List RecordField

namespace RecordLayout

variable (layout : RecordLayout)

def fields : List RecordField := layout.needed ++ layout.trailing

def keys : List String := layout.fields.map RecordField.key

/-- A value in the form of a record. -/
inductive InForm : Json → Prop
  | object (entries : Entries Json) : InForm (.object entries)
  | array (items : List Json) (enough : layout.needed.length ≤ items.length)
      (noMore : items.length ≤ layout.fields.length) : InForm (.array items)

/-- The value of a field, under its key in an object and at its place in an array. -/
def field? (key : String) : Json → Option Json
  | .object entries => find? key entries
  | .array items => items[layout.keys.idxOf key]?
  | _ => none

/-- A record whose fields hold what they may. -/
structure IsRecord (value : Json) : Prop where
  form : layout.InForm value
  fields : ∀ field ∈ layout.fields, ∀ held, layout.field? field.key value = some held →
    field.holds held

/-- What a record says in a field, whether or not the field is there. -/
def told (field : RecordField) (value : Json) : Json :=
  (layout.field? field.key value).getD field.absent

/-- Records in the same or in different forms that say the same in each field. -/
def Alike (value other : Json) : Prop :=
  value = other ∨ layout.InForm value ∧ layout.InForm other ∧
    ∀ field ∈ layout.fields, field.alike (layout.told field value) (layout.told field other)

theorem isRecord_iff (value : Json) : layout.IsRecord value ↔
    layout.InForm value ∧ ∀ field ∈ layout.fields, field.holds (layout.told field value) := by
  constructor
  · rintro ⟨form, fields⟩
    refine ⟨form, fun field isField => ?_⟩
    rw [told]
    cases found : layout.field? field.key value with
    | none => exact field.holds_absent
    | some held => exact fields field isField held found
  · rintro ⟨form, fields⟩
    refine ⟨form, fun field isField held found => ?_⟩
    have holds := fields field isField
    rwa [told, found, Option.getD_some] at holds

end RecordLayout

/-- The value is null, or such. -/
def Json.IsNullOr (such : Json → Prop) (value : Json) : Prop := value = .null ∨ such value

open Json (IsNullOr)

/-- The same value, or arrays of items that are alike one by one. -/
def ListAlike (alike : Json → Json → Prop) (value other : Json) : Prop :=
  value = other ∨ ItemsAlike alike value other

namespace RecordField

/-- A name, which may be missing or null. -/
def name : RecordField := ⟨"name", .null, IsNullOr IsText, Eq, .inl rfl⟩

/-- A list of records, which may be missing but not null. -/
def list (key : String) (item : RecordLayout) : RecordField :=
  ⟨key, .array [], IsArrayOf item.IsRecord, ListAlike item.Alike,
    ⟨[], rfl, fun _ member => absurd member List.not_mem_nil⟩⟩

/-- A list of records, which may be missing or null. -/
def nullableList (key : String) (item : RecordLayout) : RecordField :=
  ⟨key, .null, IsNullOr (IsArrayOf item.IsRecord), ListAlike item.Alike, .inl rfl⟩

end RecordField

namespace RecordLayout

def signal : RecordLayout := ⟨[.name], []⟩

def group : RecordLayout := ⟨[], [.list "signals" signal]⟩

def block : RecordLayout := ⟨[.name], [.list "groups" group]⟩

def document : RecordLayout := ⟨[.name, .nullableList "mblk" block], []⟩

@[simp] theorem fields_signal : signal.fields = [.name] := rfl

@[simp] theorem fields_group : group.fields = [.list "signals" signal] := rfl

@[simp] theorem fields_block : block.fields = [.name, .list "groups" group] := rfl

@[simp] theorem fields_document : document.fields = [.name, .nullableList "mblk" block] := rfl

end RecordLayout

namespace Json

/-- Under its name or at its place, a listed field is the same. -/
theorem find?_zip {key : String} {names : List String} (member : key ∈ names) (items : List Json) :
    find? key (names.zip items) = items[names.idxOf key]? := by
  induction names generalizing items with
  | nil => cases member
  | cons name rest ih =>
      cases items with
      | nil => rw [List.zip_nil_right, List.getElem?_nil]; rfl
      | cons item others =>
          rw [List.zip_cons_cons, Entries.find?_cons]
          split
          · next same => rw [same, List.idxOf_cons_self, List.getElem?_cons_zero]
          · next different =>
              rw [ih ((List.mem_cons.1 member).resolve_left (Ne.symm different)),
                List.idxOf_cons_ne _ different, List.getElem?_cons_succ]

end Json

namespace RecordLayout

variable (layout : RecordLayout)

/-- The entries of a record, listed fields under their keys. -/
def entries : Json → Entries Json
  | .object entries => entries
  | .array items => layout.keys.zip items
  | _ => []

theorem find?_entries {key : String} (isKey : key ∈ layout.keys) (value : Json) :
    find? key (layout.entries value) = layout.field? key value := by
  cases value with
  | object entries => rfl
  | array items => exact Json.find?_zip isKey items
  | null | bool | number | string => rfl

theorem recordFields?_eq_some_iff (value : Json) (entries : Entries Json) :
    value.recordFields? layout.keys layout.needed.length = some entries ↔
      layout.InForm value ∧ layout.entries value = entries := by
  have counted : layout.keys.length = layout.fields.length := List.length_map _
  constructor
  · intro listed
    unfold Json.recordFields? at listed
    split at listed
    · cases listed
      exact ⟨.object entries, rfl⟩
    · next items =>
        obtain ⟨⟨enough, noMore⟩, same⟩ := Option.ite_none_right_eq_some.1 listed
        cases same
        exact ⟨.array items enough (counted ▸ noMore), rfl⟩
    · cases listed
  · rintro ⟨object | ⟨items, enough, noMore⟩, rfl⟩
    · rfl
    · exact if_pos ⟨enough, counted ▸ noMore⟩

theorem bind_recordFields?_eq_some_iff {α : Type} (value : Json) (read : Entries Json → Option α)
    (result : α) :
    (value.recordFields? layout.keys layout.needed.length).bind read = some result ↔
      layout.InForm value ∧ read (layout.entries value) = some result := by
  rw [Option.bind_eq_some_iff]
  constructor
  · rintro ⟨entries, listed, isResult⟩
    obtain ⟨form, rfl⟩ := (layout.recordFields?_eq_some_iff value entries).1 listed
    exact ⟨form, isResult⟩
  · rintro ⟨form, isResult⟩
    exact ⟨_, (layout.recordFields?_eq_some_iff value _).2 ⟨form, rfl⟩, isResult⟩

theorem Alike.listed {layout : RecordLayout} {entries : Entries Json} {items : List Json}
    (enough : layout.needed.length ≤ items.length) (noMore : items.length ≤ layout.fields.length)
    (fields : ∀ field ∈ layout.fields,
      field.alike (layout.told field (.object entries)) (layout.told field (.array items))) :
    layout.Alike (.object entries) (.array items) :=
  .inr ⟨.object entries, .array items enough noMore, fields⟩

/-- What is read of the form and of what is said is read of records alike. -/
theorem Alike.read_eq {layout : RecordLayout} {value other : Json}
    (alike : layout.Alike value other) {α : Type} {read : Json → Option α}
    {gives : Json → α → Prop}
    (reads : ∀ value result, read value = some result ↔ layout.InForm value ∧ gives value result)
    (same : (∀ field ∈ layout.fields, field.alike (layout.told field value)
      (layout.told field other)) → ∀ result, gives other result ↔ gives value result) :
    read other = read value := by
  obtain rfl | ⟨form, otherForm, fields⟩ := alike
  · rfl
  · apply Option.ext
    intro result
    rw [reads, reads]
    exact and_congr (iff_of_true otherForm form) (same fields result)

theorem getD_find?_entries {field : RecordField} (isField : field ∈ layout.fields) (value : Json) :
    (find? field.key (layout.entries value)).getD field.absent = layout.told field value := by
  rw [find?_entries layout (List.mem_map_of_mem isField), told]

end RecordLayout

namespace Json

variable {α : Type}

def nullable? (read : Json → Option α) : Json → Option (Option α)
  | null => some none
  | value => (read value).map some

def records? (read : Json → Option α) : Json → Option (List α)
  | array items => items.mapM read
  | _ => none

variable (fields : Entries Json) (key : String)

theorem nullableText?_eq :
    nullableText? fields key = ((find? key fields).getD null).nullable? text? := by
  unfold nullableText?
  cases find? key fields with
  | none => rfl
  | some value => cases value <;> rfl

theorem listField?_eq (read : Json → Option α) :
    listField? read fields key = ((find? key fields).getD (array [])).records? read := by
  unfold listField?
  cases find? key fields with
  | none => rfl
  | some value => cases value <;> rfl

theorem nullableList?_eq (read : Json → Option α) :
    nullableList? read fields key =
      ((find? key fields).getD null).nullable? (records? read) := by
  unfold nullableList?
  cases find? key fields with
  | none => rfl
  | some value => cases value <;> rfl

theorem exists_nullable?_iff (read : Json → Option α) (value : Json) :
    (∃ result, value.nullable? read = some result) ↔
      IsNullOr (fun value => ∃ result, read value = some result) value := by
  constructor
  · rintro ⟨result, isResult⟩
    unfold nullable? at isResult
    split at isResult
    · exact .inl rfl
    · obtain ⟨given, isGiven, -⟩ := Option.map_eq_some_iff.1 isResult
      exact .inr ⟨given, isGiven⟩
  · rintro (rfl | ⟨given, isGiven⟩)
    · exact ⟨none, rfl⟩
    · unfold nullable?
      split
      · exact ⟨none, rfl⟩
      · exact ⟨some given, by rw [isGiven, Option.map_some]⟩

theorem exists_mapM_iff (read : Json → Option α) (items : List Json) :
    (∃ results, items.mapM read = some results) ↔ ∀ item ∈ items, ∃ result, read item = some result
    := by
  induction items with
  | nil => exact iff_of_true ⟨[], rfl⟩ fun _ member => absurd member List.not_mem_nil
  | cons item rest ih =>
      rw [List.forall_mem_cons, ← ih]
      simp only [List.mapM_cons, Option.bind_eq_bind, Option.pure_def, Option.bind_eq_some_iff]
      constructor
      · rintro ⟨results, result, isResult, later, areLater, -⟩
        exact ⟨⟨result, isResult⟩, later, areLater⟩
      · rintro ⟨⟨result, isResult⟩, later, areLater⟩
        exact ⟨result :: later, result, isResult, later, areLater, rfl⟩

theorem exists_records?_iff (read : Json → Option α) (value : Json) :
    (∃ results, value.records? read = some results) ↔
      IsArrayOf (fun item => ∃ result, read item = some result) value := by
  constructor
  · rintro ⟨results, areResults⟩
    unfold records? at areResults
    split at areResults
    · next items => exact ⟨items, rfl, (exists_mapM_iff read items).1 ⟨results, areResults⟩⟩
    · cases areResults
  · rintro ⟨items, rfl, each⟩
    exact (exists_mapM_iff read items).2 each

/-- Lists are read the same, if their items are. -/
theorem records?_congr {read : Json → Option α} {alike : Json → Json → Prop}
    (same : ∀ item other, alike item other → read other = read item) {value other : Json}
    (lists : ListAlike alike value other) : other.records? read = value.records? read := by
  obtain rfl | ⟨⟨items⟩⟩ := lists
  · rfl
  · rw [records?, records?]
    induction items with
    | nil => rfl
    | cons item _ ih => rw [List.mapM_cons, List.mapM_cons, same _ _ item, ih]

/-- Null is like itself only. -/
theorem nullable?_records?_congr {read : Json → Option α} {alike : Json → Json → Prop}
    (same : ∀ item other, alike item other → read other = read item) {value other : Json}
    (lists : ListAlike alike value other) :
    other.nullable? (records? read) = value.nullable? (records? read) := by
  have records := records?_congr same lists
  obtain rfl | ⟨⟨items⟩⟩ := lists
  · rfl
  · exact congrArg (Option.map some) records

end Json

namespace RecordLayout

open Json (text? nullable? records?)

variable (layout : RecordLayout)

theorem nullableText?_entries (isField : .name ∈ layout.fields) (value : Json) :
    Json.nullableText? (layout.entries value) "name" =
      (layout.told .name value).nullable? text? := by
  rw [← layout.getD_find?_entries isField]
  exact Json.nullableText?_eq _ _

variable {α : Type} (read : Json → Option α) {key : String} (item : RecordLayout)

theorem listField?_entries (isField : .list key item ∈ layout.fields) (value : Json) :
    Json.listField? read (layout.entries value) key =
      (layout.told (.list key item) value).records? read := by
  rw [← layout.getD_find?_entries isField]
  exact Json.listField?_eq _ _ read

theorem nullableList?_entries (isField : .nullableList key item ∈ layout.fields) (value : Json) :
    Json.nullableList? read (layout.entries value) key =
      (layout.told (.nullableList key item) value).nullable? (records? read) := by
  rw [← layout.getD_find?_entries isField]
  exact Json.nullableList?_eq _ _ read

end RecordLayout

namespace SignalDocument

open Json (text? nullable? records?)
open RecordLayout (signal group block document)

theorem signal?_eq_some_iff (value : Json) (result : Signal) :
    signal? value = some result ↔ signal.InForm value ∧
      (signal.told .name value).nullable? text? = some result.name := by
  refine (signal.bind_recordFields?_eq_some_iff value _ result).trans (and_congr_right fun _ => ?_)
  rw [signal.nullableText?_entries (by simp)]
  constructor
  · intro read
    obtain ⟨name, isName, same⟩ := Option.bind_eq_some_iff.1 read
    cases same
    exact isName
  · exact fun isName => Option.bind_eq_some_iff.2 ⟨_, isName, rfl⟩

theorem group?_eq_some_iff (value : Json) (result : List Signal) :
    group? value = some result ↔ group.InForm value ∧
      (group.told (.list "signals" signal) value).records? signal? = some result := by
  refine (group.bind_recordFields?_eq_some_iff value _ result).trans (and_congr_right fun _ => ?_)
  rw [group.listField?_entries signal? signal (by simp)]

theorem block?_eq_some_iff (value : Json) (result : MemoryBlock) :
    block? value = some result ↔ block.InForm value ∧
      (block.told .name value).nullable? text? = some result.name ∧
      (block.told (.list "groups" group) value).records? group? = some result.groups := by
  refine (block.bind_recordFields?_eq_some_iff value _ result).trans (and_congr_right fun _ => ?_)
  rw [block.nullableText?_entries (by simp), block.listField?_entries group? group (by simp)]
  constructor
  · intro read
    obtain ⟨name, isName, read⟩ := Option.bind_eq_some_iff.1 read
    obtain ⟨groups, areGroups, same⟩ := Option.bind_eq_some_iff.1 read
    cases same
    exact ⟨isName, areGroups⟩
  · rintro ⟨isName, areGroups⟩
    exact Option.bind_eq_some_iff.2 ⟨_, isName, Option.bind_eq_some_iff.2 ⟨_, areGroups, rfl⟩⟩

theorem ofJson?_eq_some_iff (value : Json) (result : SignalDocument) :
    ofJson? value = some result ↔ document.InForm value ∧
      (document.told .name value).nullable? text? = some result.name ∧
      (document.told (.nullableList "mblk" block) value).nullable? (records? block?) =
        some result.blocks := by
  refine (document.bind_recordFields?_eq_some_iff value _ result).trans
    (and_congr_right fun _ => ?_)
  rw [document.nullableText?_entries (by simp),
    document.nullableList?_entries block? block (by simp)]
  constructor
  · intro read
    obtain ⟨name, isName, read⟩ := Option.bind_eq_some_iff.1 read
    obtain ⟨blocks, areBlocks, same⟩ := Option.bind_eq_some_iff.1 read
    cases same
    exact ⟨isName, areBlocks⟩
  · rintro ⟨isName, areBlocks⟩
    exact Option.bind_eq_some_iff.2 ⟨_, isName, Option.bind_eq_some_iff.2 ⟨_, areBlocks, rfl⟩⟩

section Holds

variable {α : Type} {read : Json → Option α} {item : RecordLayout}
  (each : ∀ value, (∃ result, read value = some result) ↔ item.IsRecord value)
  (key : String) (value : Json)

theorem holds_name_iff :
    RecordField.name.holds value ↔ ∃ said, value.nullable? text? = some said := by
  rw [Json.exists_nullable?_iff]
  simp only [Json.text?_eq_some_iff]
  exact Iff.rfl

include each

theorem holds_list_iff :
    (RecordField.list key item).holds value ↔ ∃ results, value.records? read = some results := by
  simp only [Json.exists_records?_iff, each]
  exact Iff.rfl

theorem holds_nullableList_iff : (RecordField.nullableList key item).holds value ↔
    ∃ results, value.nullable? (records? read) = some results := by
  simp only [Json.exists_nullable?_iff, Json.exists_records?_iff, each]
  exact Iff.rfl

end Holds

theorem exists_signal?_iff (value : Json) :
    (∃ result, signal? value = some result) ↔ signal.IsRecord value := by
  rw [RecordLayout.isRecord_iff, RecordLayout.fields_signal, List.forall_mem_singleton,
    holds_name_iff]
  simp only [signal?_eq_some_iff]
  constructor
  · rintro ⟨result, form, isName⟩
    exact ⟨form, result.name, isName⟩
  · rintro ⟨form, name, isName⟩
    exact ⟨⟨name⟩, form, isName⟩

theorem exists_group?_iff (value : Json) :
    (∃ result, group? value = some result) ↔ group.IsRecord value := by
  rw [RecordLayout.isRecord_iff, RecordLayout.fields_group, List.forall_mem_singleton,
    holds_list_iff exists_signal?_iff]
  simp only [group?_eq_some_iff, exists_and_left]

theorem exists_block?_iff (value : Json) :
    (∃ result, block? value = some result) ↔ block.IsRecord value := by
  rw [RecordLayout.isRecord_iff, RecordLayout.fields_block, List.forall_mem_cons,
    List.forall_mem_singleton, holds_name_iff, holds_list_iff exists_group?_iff]
  simp only [block?_eq_some_iff]
  constructor
  · rintro ⟨result, form, isName, areGroups⟩
    exact ⟨form, ⟨result.name, isName⟩, result.groups, areGroups⟩
  · rintro ⟨form, ⟨name, isName⟩, groups, areGroups⟩
    exact ⟨⟨name, groups⟩, form, isName, areGroups⟩

theorem exists_ofJson?_iff (value : Json) :
    (∃ result, ofJson? value = some result) ↔ document.IsRecord value := by
  rw [RecordLayout.isRecord_iff, RecordLayout.fields_document, List.forall_mem_cons,
    List.forall_mem_singleton, holds_name_iff, holds_nullableList_iff exists_block?_iff]
  simp only [ofJson?_eq_some_iff]
  constructor
  · rintro ⟨result, form, isName, areBlocks⟩
    exact ⟨form, ⟨result.name, isName⟩, result.blocks, areBlocks⟩
  · rintro ⟨form, ⟨name, isName⟩, blocks, areBlocks⟩
    exact ⟨⟨name, blocks⟩, form, isName, areBlocks⟩

/-- The groups of a block are looked at even if the block has no name. -/
example : ofJson? (.object [("name", .null), ("mblk", .array [.object [("groups", .null)]])]) =
    none := rfl

theorem signal?_alike (value other : Json) (alike : signal.Alike value other) :
    signal? other = signal? value := by
  refine alike.read_eq signal?_eq_some_iff fun fields result => ?_
  have names : signal.told .name value = signal.told .name other := fields .name (by simp)
  rw [names]

theorem group?_alike (value other : Json) (alike : group.Alike value other) :
    group? other = group? value := by
  refine alike.read_eq group?_eq_some_iff fun fields result => ?_
  rw [Json.records?_congr signal?_alike (fields (.list "signals" signal) (by simp))]

theorem block?_alike (value other : Json) (alike : block.Alike value other) :
    block? other = block? value := by
  refine alike.read_eq block?_eq_some_iff fun fields result => ?_
  have names : block.told .name value = block.told .name other := fields .name (by simp)
  rw [names, Json.records?_congr group?_alike (fields (.list "groups" group) (by simp))]

theorem ofJson?_alike (value other : Json) (alike : document.Alike value other) :
    ofJson? other = ofJson? value := by
  refine alike.read_eq ofJson?_eq_some_iff fun fields result => ?_
  have names : document.told .name value = document.told .name other := fields .name (by simp)
  rw [names, Json.nullable?_records?_congr block?_alike
    (fields (.nullableList "mblk" block) (by simp))]

end SignalDocument

namespace SignalIndex

theorem result_ofDocument {ε : Type} (document : String) (signals : SignalDocument) :
    ∃ index, (ofDocument document signals : Outcome ε SignalIndex).result = .ok index := by
  unfold ofDocument
  cases signals.name with
  | none => exact ⟨_, rfl⟩
  | some name => cases signals.blocks <;> exact ⟨_, rfl⟩

/-- A document has an index just if it is laid out right, in whichever forms its records are. If it
is not, nothing else is said of it. -/
theorem ofJson_layout (document : String) (value : Json) :
    ((∃ index, (ofJson document value).result = .ok index) ↔
      RecordLayout.document.IsRecord value) ∧
    (∀ error, (ofJson document value).result = .error error →
      error = .unexpectedLayout document ∧ (ofJson document value).events = []) ∧
    ∀ other, RecordLayout.document.Alike value other →
      ofJson document other = ofJson document value := by
  rw [← SignalDocument.exists_ofJson?_iff]
  refine ⟨?_, ?_, fun other alike => ?_⟩
  · unfold ofJson
    cases SignalDocument.ofJson? value with
    | none => exact iff_of_false (fun ⟨_, isIndex⟩ => by cases isIndex) nofun
    | some signals => exact iff_of_true (result_ofDocument document signals) ⟨signals, rfl⟩
  · unfold ofJson
    cases SignalDocument.ofJson? value with
    | none =>
        rintro error ⟨⟩
        exact ⟨rfl, rfl⟩
    | some signals =>
        intro error failed
        obtain ⟨index, isIndex⟩ := result_ofDocument document signals
        cases failed.symm.trans isIndex
  · rw [ofJson, SignalDocument.ofJson?_alike value other alike, ofJson]

/-- A block without a name, with records as objects. -/
def unnamedAsObjects : Json :=
  .object [("name", .string "cpu"), ("mblk", .array [.object [("groups", .array [
    .object [("signals", .array [.object [("name", .string "led"), ("width", .null)]])]])]])]

/-- The same block with records as arrays. -/
def unnamedAsArrays : Json :=
  .array [.string "cpu", .array [.array [.null, .array [.array [.array [.array [.string "led"]]]]]]]

theorem ofJson_layout_unnamed :
    (∃ index, (ofJson "cpu.json" unnamedAsObjects).result = .ok index) ∧
      ofJson "cpu.json" unnamedAsArrays = ofJson "cpu.json" unnamedAsObjects := by
  obtain ⟨accepted, -, alike⟩ := ofJson_layout "cpu.json" unnamedAsObjects
  refine ⟨accepted.2 ((SignalDocument.exists_ofJson?_iff _).1 ⟨_, rfl⟩), alike _ ?_⟩
  -- From the document down to its only signal.
  refine .listed (by decide) (by decide) (List.forall_mem_cons.2 ⟨rfl, ?_⟩)
  refine List.forall_mem_singleton.2 (.inr (.array (.cons ?_ .nil)))
  refine .listed (by decide) (by decide) (List.forall_mem_cons.2 ⟨rfl, ?_⟩)
  refine List.forall_mem_singleton.2 (.inr (.array (.cons ?_ .nil)))
  refine .listed (by decide) (by decide) (List.forall_mem_singleton.2 ?_)
  refine .inr (.array (.cons ?_ .nil))
  exact .listed (by decide) (by decide) (List.forall_mem_singleton.2 rfl)

end SignalIndex

end PinTable
