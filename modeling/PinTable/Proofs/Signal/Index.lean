import PinTable.Proofs.Build.Warnings
import PinTable.Proofs.Json.Settled
import PinTable.Proofs.Signal.Layout

set_option autoImplicit false

namespace PinTable

open Entries (find? keys settled)

namespace Entries

variable {κ α : Type} [DecidableEq κ]

/-- The last entry of a key. -/
def IsLast (key : κ) (value : α) (entries : EntriesBy κ α) : Prop :=
  ∃ front behind, entries = front ++ (key, value) :: behind ∧ key ∉ keys behind

/-- The first entry of a key is the one that is found. -/
theorem find?_eq_some_iff_split (key : κ) (value : α) (entries : EntriesBy κ α) :
    find? key entries = some value ↔
      ∃ front behind, entries = front ++ (key, value) :: behind ∧ key ∉ keys front := by
  constructor
  · intro found
    induction entries with
    | nil => cases found
    | cons entry rest ih =>
        obtain ⟨known, old⟩ := entry
        rw [find?_cons] at found
        split at found
        · next same =>
            cases found
            exact ⟨[], rest, by rw [same, List.nil_append], List.not_mem_nil⟩
        · next different =>
            obtain ⟨front, behind, rfl, fresh⟩ := ih found
            exact ⟨(known, old) :: front, behind, rfl,
              List.not_mem_cons_of_ne_of_not_mem (Ne.symm different) fresh⟩
  · rintro ⟨front, behind, rfl, fresh⟩
    induction front with
    | nil => exact if_pos rfl
    | cons entry rest ih =>
        have different : entry.1 ≠ key := fun same => fresh (same ▸ List.mem_cons_self)
        rw [List.cons_append, find?_cons, if_neg different]
        exact ih fun later => fresh (List.mem_cons_of_mem _ later)

theorem find?_reverse_eq_some_iff (key : κ) (value : α) (entries : EntriesBy κ α) :
    find? key entries.reverse = some value ↔ IsLast key value entries := by
  rw [find?_eq_some_iff_split]
  constructor
  · rintro ⟨front, behind, turned, fresh⟩
    refine ⟨behind.reverse, front.reverse, ?_, ?_⟩
    · rw [← List.reverse_reverse entries, turned, List.reverse_append, List.reverse_cons,
        List.append_assoc, List.singleton_append]
    · rwa [keys, List.map_reverse, List.mem_reverse]
  · rintro ⟨front, behind, rfl, fresh⟩
    refine ⟨behind.reverse, front.reverse, ?_, ?_⟩
    · rw [List.reverse_append, List.reverse_cons, List.append_assoc, List.singleton_append]
    · rwa [keys, List.map_reverse, List.mem_reverse]

end Entries

namespace RecordLayout

variable (layout : RecordLayout)

/-- The name of a record, if it has one. -/
def nameOf? (value : Json) : Option String := (layout.field? "name" value).bind Json.text?

/-- The records that are listed under a key. -/
def recordsUnder (key : String) (value : Json) : List Json :=
  match layout.field? key value with
  | some (.array items) => items
  | _ => []

/-- A field is missing or null. -/
def Misses (key : String) (value : Json) : Prop :=
  layout.field? key value = none ∨ layout.field? key value = some .null

end RecordLayout

namespace Json

/-- The names of the signals of a block, over its groups. -/
def signalNames (block : Json) : List String :=
  (RecordLayout.block.recordsUnder "groups" block).flatMap fun group =>
    (RecordLayout.group.recordsUnder "signals" group).filterMap RecordLayout.signal.nameOf?

/-- The signals of a block with the name of the block, or none if it has no name. -/
def ownedSignals (block : Json) : Entries String :=
  match RecordLayout.block.nameOf? block with
  | none => []
  | some name => (signalNames block).map fun signal => (signal, name)

end Json

/-- The signals of a block with the name of the block, or none if it has no name. -/
def MemoryBlock.ownedSignals (block : MemoryBlock) : Entries String :=
  match block.name with
  | none => []
  | some name => (block.groups.flatten.filterMap Signal.name).map fun signal => (signal, name)

namespace SignalIndex

variable (device : String)

/-- Adds a signal of a block. -/
def enter (index : SignalIndex) (signal : String × String) : SignalIndex :=
  ⟨Entries.put signal.1 (memberReference device signal.2 signal.1) index.references⟩

theorem addBlock_eq (index : SignalIndex) (block : MemoryBlock) :
    addBlock device index block = block.ownedSignals.foldl (enter device) index := by
  unfold addBlock MemoryBlock.ownedSignals
  cases block.name with
  | none => rfl
  | some name =>
      dsimp only
      rw [List.foldl_map, List.foldl_filterMap]
      congr
      funext index signal
      unfold add
      cases signal.name <;> rfl

theorem foldl_addBlock (index : SignalIndex) (blocks : List MemoryBlock) :
    blocks.foldl (addBlock device) index =
      (blocks.flatMap MemoryBlock.ownedSignals).foldl (enter device) index := by
  rw [List.foldl_flatMap]
  congr
  funext index block
  exact addBlock_eq device index block

theorem references_foldl_enter (signals : Entries String) :
    (signals.foldl (enter device) empty).references =
      settled (signals.map fun signal => (signal.1, memberReference device signal.2 signal.1)) := by
  rw [settled, List.foldl_map]
  exact (List.foldl_hom references fun _ _ => rfl).symm

/-- Of several signals with a name the last is the one that counts. -/
theorem referenceTo?_foldl_addBlock (blocks : List MemoryBlock) (pin : String) :
    (blocks.foldl (addBlock device) empty).referenceTo? pin =
      (find? pin (blocks.flatMap MemoryBlock.ownedSignals).reverse).map
        fun block => memberReference device block pin := by
  rw [referenceTo?, foldl_addBlock, references_foldl_enter, Entries.find?_settled,
    ← List.map_reverse]
  exact Entries.find?_map pin (fun signal block => memberReference device block signal) _

end SignalIndex

theorem forall₂_of_mapM {α β : Type} {read : α → Option β} {items : List α} {results : List β}
    (given : items.mapM read = some results) :
    List.Forall₂ (fun item result => read item = some result) items results := by
  induction items generalizing results with
  | nil =>
      cases given
      exact .nil
  | cons item rest ih =>
      rw [List.mapM_cons] at given
      obtain ⟨result, isResult, given⟩ := Option.bind_eq_some_iff.1 given
      obtain ⟨later, areLater, same⟩ := Option.bind_eq_some_iff.1 given
      cases same
      exact .cons isResult (ih areLater)

theorem Json.eq_none_iff_of_nullable? {α : Type} {read : Json → Option α} {value : Json}
    {said : Option α} (given : value.nullable? read = some said) : said = none ↔ value = .null := by
  unfold nullable? at given
  split at given
  · cases given
    exact iff_of_true rfl rfl
  · next noNull =>
      obtain ⟨result, -, rfl⟩ := Option.map_eq_some_iff.1 given
      exact iff_of_false nofun noNull

namespace RecordLayout

variable (layout : RecordLayout) {value : Json}

theorem misses_iff (key : String) :
    layout.Misses key value ↔ (layout.field? key value).getD .null = .null := by
  rw [Misses]
  cases layout.field? key value with
  | none => exact iff_of_true (.inl rfl) rfl
  | some held =>
      rw [Option.getD_some, Option.some_inj]
      exact or_iff_right nofun

theorem nameOf?_of_nullable? {said : Option String}
    (read : (layout.told .name value).nullable? Json.text? = some said) :
    layout.nameOf? value = said := by
  change ((layout.field? "name" value).getD .null).nullable? Json.text? = some said at read
  rw [nameOf?]
  cases found : layout.field? "name" value with
  | none =>
      rw [found] at read
      cases read
      rfl
  | some held =>
      rw [found] at read
      cases held <;> cases read <;> rfl

variable {α : Type} {key : String} {item : RecordLayout} {read : Json → Option α}

theorem forall₂_recordsUnder {results : List α}
    (given : (layout.told (.list key item) value).records? read = some results) :
    List.Forall₂ (fun item result => read item = some result) (layout.recordsUnder key value)
      results := by
  change ((layout.field? key value).getD (.array [])).records? read = some results at given
  rw [recordsUnder]
  cases found : layout.field? key value with
  | none =>
      rw [found] at given
      cases given
      exact .nil
  | some held =>
      rw [found] at given
      cases held with
      | array items => exact forall₂_of_mapM given
      | null | bool | number | string | object => cases given

end RecordLayout

namespace SignalDocument

open RecordLayout (signal group block)

theorem nameOf?_of_signal? {value : Json} {result : Signal} (read : signal? value = some result) :
    signal.nameOf? value = result.name :=
  signal.nameOf?_of_nullable? ((signal?_eq_some_iff ..).1 read).2

theorem names_of_group? {value : Json} {result : List Signal}
    (read : group? value = some result) :
    (group.recordsUnder "signals" value).filterMap signal.nameOf? =
      result.filterMap Signal.name := by
  have signals := group.forall₂_recordsUnder ((group?_eq_some_iff ..).1 read).2
  have names := map_eq_of_forall₂ (signals.imp fun _ _ => nameOf?_of_signal?)
  have kept := congrArg (List.filterMap id) names
  rwa [List.filterMap_map, List.filterMap_map] at kept

theorem nameOf?_of_block? {value : Json} {result : MemoryBlock}
    (read : block? value = some result) : block.nameOf? value = result.name :=
  block.nameOf?_of_nullable? ((block?_eq_some_iff ..).1 read).2.1

theorem ownedSignals_of_block? {value : Json} {result : MemoryBlock}
    (read : block? value = some result) : value.ownedSignals = result.ownedSignals := by
  have groups := block.forall₂_recordsUnder ((block?_eq_some_iff ..).1 read).2.2
  have names : value.signalNames = result.groups.flatten.filterMap Signal.name := by
    rw [List.filterMap_flatten, ← List.flatMap_def, Json.signalNames]
    exact flatMap_eq_of_forall₂ (groups.imp fun _ _ => names_of_group?)
  rw [Json.ownedSignals, nameOf?_of_block? read, names]
  rfl

open RecordLayout (document)

variable {root : Json} {signals : SignalDocument} (read : ofJson? root = some signals)

include read

theorem nameOf?_of_ofJson? : document.nameOf? root = signals.name :=
  document.nameOf?_of_nullable? ((ofJson?_eq_some_iff ..).1 read).2.1

theorem name_eq_none_iff : signals.name = none ↔ document.Misses "name" root := by
  rw [RecordLayout.misses_iff]
  exact Json.eq_none_iff_of_nullable? ((ofJson?_eq_some_iff ..).1 read).2.1

theorem told_blocks : ((document.field? "mblk" root).getD .null).nullable?
    (Json.records? block?) = some signals.blocks :=
  ((ofJson?_eq_some_iff ..).1 read).2.2

theorem blocks_eq_none_iff : signals.blocks = none ↔ document.Misses "mblk" root := by
  rw [RecordLayout.misses_iff]
  exact Json.eq_none_iff_of_nullable? (told_blocks read)

theorem blocks_of_field? {blocks : List Json}
    (found : document.field? "mblk" root = some (.array blocks)) :
    ∃ results, signals.blocks = some results ∧
      List.Forall₂ (fun value result => block? value = some result) blocks results := by
  have told := told_blocks read
  rw [found] at told
  obtain ⟨results, given, same⟩ := Option.map_eq_some_iff.1 told
  exact ⟨results, same.symm, forall₂_of_mapM given⟩

end SignalDocument

namespace SignalIndex

open RecordLayout (block)

theorem memberReference_eq (device block signal : String) :
    memberReference device block signal = "&" ++ device ++ "." ++ block ++ "." ++ signal := by
  simp only [memberReference, addressOf, String.append_assoc]

/-- The warnings about blocks without a name, one for each in their order. -/
theorem replicate_unnamed (document : String) {values : List Json} {blocks : List MemoryBlock}
    (each : List.Forall₂ (fun value block => SignalDocument.block? value = some block) values
      blocks) :
    List.replicate (blocks.countP fun block => block.name.isNone) (Warning.unnamedBlock document) =
      (values.filter fun value => (block.nameOf? value).isNone).map
        fun _ => .unnamedBlock document := by
  have names := map_eq_of_forall₂ (each.imp fun _ _ => SignalDocument.nameOf?_of_block?)
  have counts := congrArg (List.countP Option.isNone) names
  rw [List.countP_map, List.countP_map] at counts
  rw [List.map_const', ← List.countP_eq_length_filter]
  exact congrArg (List.replicate · _) counts.symm

/-- The signals of a document, and the warnings about it. -/
theorem ofJson_resolves (document : String) (root : Json)
    (laidOut : RecordLayout.document.IsRecord root) :
    ∃ index, (ofJson document root).result = .ok index ∧
      (∀ device blocks, RecordLayout.document.nameOf? root = some device →
        RecordLayout.document.field? "mblk" root = some (.array blocks) →
        (∀ pin reference, index.referenceTo? pin = some reference ↔
          ∃ block, Entries.IsLast pin block (blocks.flatMap Json.ownedSignals) ∧
            reference = "&" ++ device ++ "." ++ block ++ "." ++ pin) ∧
        (∀ pin, index.referenceTo? pin = none ↔
          pin ∉ keys (blocks.flatMap Json.ownedSignals)) ∧
        (ofJson document root).warnings =
          (blocks.filter fun value => (block.nameOf? value).isNone).map
            fun _ => .unnamedBlock document) ∧
      (RecordLayout.document.Misses "name" root →
        (∀ pin, index.referenceTo? pin = none) ∧
        (ofJson document root).warnings = [.signalsMissingKey document "name"]) ∧
      (∀ device, RecordLayout.document.nameOf? root = some device →
        RecordLayout.document.Misses "mblk" root →
        (∀ pin, index.referenceTo? pin = none) ∧
        (ofJson document root).warnings = [.signalsMissingKey document "mblk"]) := by
  obtain ⟨signals, read⟩ := (SignalDocument.exists_ofJson?_iff root).2 laidOut
  have outcome : ofJson document root = ofDocument document signals := by rw [ofJson, read]
  have named := SignalDocument.nameOf?_of_ofJson? read
  obtain ⟨index, isIndex⟩ := result_ofDocument (ε := DocumentError) document signals
  rw [outcome, warnings_ofDocument, SignalDocument.notices, named,
    ← SignalDocument.name_eq_none_iff read, ← SignalDocument.blocks_eq_none_iff read]
  refine ⟨index, isIndex, ?_, ?_, ?_⟩
  · intro device blocks isName isArray
    obtain ⟨results, areBlocks, each⟩ := SignalDocument.blocks_of_field? read isArray
    rw [ofDocument, isName, areBlocks] at isIndex
    cases isIndex
    rw [isName, areBlocks]
    have owned := flatMap_eq_of_forall₂
      (each.imp fun _ _ => SignalDocument.ownedSignals_of_block?)
    refine ⟨fun pin reference => ?_, fun pin => ?_, replicate_unnamed document each⟩
    · rw [referenceTo?_foldl_addBlock, ← owned, Option.map_eq_some_iff]
      simp only [Entries.find?_reverse_eq_some_iff, memberReference_eq]
      exact exists_congr fun _ => and_congr_right fun _ => eq_comm
    · rw [referenceTo?_foldl_addBlock, ← owned, Option.map_eq_none_iff, Entries.find?_eq_none_iff,
        keys, List.map_reverse, List.mem_reverse, keys]
  · intro isName
    rw [ofDocument, isName] at isIndex
    cases isIndex
    rw [isName]
    exact ⟨fun _ => rfl, rfl⟩
  · intro device isName areBlocks
    rw [ofDocument, isName, areBlocks] at isIndex
    cases isIndex
    rw [isName, areBlocks]
    exact ⟨fun _ => rfl, rfl⟩

/-- Blocks that repeat a signal, the last of them without a name. -/
def repeatedSignals : Json :=
  .object [("name", .string "cpu"), ("mblk", .array [
    .object [("name", .string "a"), ("groups", .array [.object [("signals", .array [
      .object [("name", .string "led")], .array [.string "key"]])]])],
    .array [.string "b", .array [.array [.array [.array [.string "led"], .array [.null]]]]],
    .object [("groups", .array [.array [.array [.array [.string "key"]]]])]])]

theorem ofJson_resolves_repeated :
    ∃ index, (ofJson "cpu.json" repeatedSignals).result = .ok index ∧
      index.referenceTo? "led" = some "&cpu.b.led" ∧
      index.referenceTo? "key" = some "&cpu.a.key" ∧ index.referenceTo? "fan" = none ∧
      (ofJson "cpu.json" repeatedSignals).warnings = [.unnamedBlock "cpu.json"] := by
  obtain ⟨index, isIndex, resolved, -⟩ := ofJson_resolves "cpu.json" repeatedSignals
    ((SignalDocument.exists_ofJson?_iff _).1 ⟨_, rfl⟩)
  obtain ⟨found, missing, warnings⟩ := resolved "cpu" _ rfl rfl
  refine ⟨index, isIndex, ?_, ?_, (missing "fan").2 (by decide), warnings⟩
  · exact (found "led" _).2 ⟨"b", ⟨[("led", "a"), ("key", "a")], [], rfl, by decide⟩, rfl⟩
  · exact (found "key" _).2 ⟨"a", ⟨[("led", "a")], [("led", "b")], rfl, by decide⟩, rfl⟩

end SignalIndex

end PinTable
