import PinTable.Listing.Draft
import PinTable.Proofs.Listing.Lines
import PinTable.Proofs.Reading.Records

set_option autoImplicit false

namespace PinTable.Listing

open Reading

def busRecord (wiring : Wiring) (position : Nat) (bus : Bus) : SourceRecord :=
  ⟨bus.symbol, [bus.kind.symbol, referenceTo ((wiring.headOf? bus).map Chip.symbol),
    wiring.previousReference position]⟩

def mainRecord (wiring : Wiring) : SourceRecord := ⟨deviceBusSymbol, [wiring.lastReference]⟩

def chipRecord (wiring : Wiring) (chip : Chip) : SourceRecord :=
  ⟨chip.symbol, [chip.pin.address, referenceTo ((wiring.busOf? chip).map Bus.symbol),
    referenceTo ((wiring.nextOf? chip).map Chip.symbol), addressOf (chip.driver ++ "_gen_req"),
    addressOf (chip.driver ++ "_proc_resp"), addressOf (chip.driver ++ "_set"),
    addressOf (chip.driver ++ "_get")]⟩

def busRecords (wiring : Wiring) : List SourceRecord := wiring.buses.mapIdx (busRecord wiring)

def chipRecords (wiring : Wiring) : List SourceRecord := wiring.chips.map (chipRecord wiring)

theorem map_symbol_busRecords (wiring : Wiring) :
    (busRecords wiring).map SourceRecord.symbol = wiring.buses.map Bus.symbol := by
  apply List.ext_getElem?
  intro position
  rw [List.getElem?_map, busRecords, List.getElem?_mapIdx, Option.map_map, List.getElem?_map]
  rfl

theorem map_symbol_chipRecords (wiring : Wiring) :
    (chipRecords wiring).map SourceRecord.symbol = wiring.chips.map Chip.symbol := by
  rw [chipRecords, List.map_map]
  rfl

theorem busLine_eq (wiring : Wiring) (position : Nat) (bus : Bus) :
    busLine wiring position bus = recordLine "PinsBus" (busRecord wiring position bus) := by
  have type : "PinsBus " = "PinsBus" ++ " " := rfl
  unfold busLine recordLine busRecord
  simp only [commaList_cons, type, String.append_assoc]
  rfl

theorem chipLine_eq (wiring : Wiring) (chip : Chip) :
    chipLine wiring chip = recordLine "PinsBusDevice" (chipRecord wiring chip) := by
  have type : "PinsBusDevice " = "PinsBusDevice" ++ " " := rfl
  unfold chipLine recordLine chipRecord
  simp only [commaList_cons, type, String.append_assoc]
  rfl

/-- The block of the buses with its records in place. -/
theorem busSource_eq (wiring : Wiring) :
    busSource wiring =
      ["", busCondition] ++ sectionComment "SPI and I2C bus structures" ++
        (busRecords wiring).map (recordLine "PinsBus") ++
        sectionComment "Device bus main structure" ++
        [mainRecord wiring].map (recordLine "PinsDeviceBus") ++
        sectionComment "SPI and I2C device structures" ++
        (chipRecords wiring).map (recordLine "PinsBusDevice") ++
        sectionComment "Initialize all SPI and I2C bus devices" ++
        initializerLines wiring ++ ["#endif"] := by
  have main : "PinsDeviceBus " ++ deviceBusSymbol ++ " = " ++ braced wiring.lastReference ++ ";" =
      recordLine "PinsDeviceBus" (mainRecord wiring) := by
    have type : "PinsDeviceBus " = "PinsDeviceBus" ++ " " := rfl
    simp only [recordLine, mainRecord, type, String.append_assoc]
    rfl
  have buses : wiring.buses.mapIdx (busLine wiring) =
      (busRecords wiring).map (recordLine "PinsBus") := by
    rw [List.mapIdx_eq_iff]
    intro position
    rw [List.getElem?_map, busRecords, List.getElem?_mapIdx, Option.map_map]
    exact congrArg (wiring.buses[position]?.map ·)
      (funext fun bus => (busLine_eq wiring position bus).symm)
  have chips : wiring.chips.map (chipLine wiring) =
      (chipRecords wiring).map (recordLine "PinsBusDevice") := by
    rw [chipRecords, List.map_map]
    exact List.map_congr_left fun chip _ => chipLine_eq wiring chip
  rw [busSource, buses, main, chips]
  rfl

structure Worded (wiring : Wiring) : Prop where
  buses : ∀ bus ∈ wiring.buses, Word bus.symbol
  symbols : ∀ chip ∈ wiring.chips, Word chip.symbol
  pins : ∀ chip ∈ wiring.chips, Word chip.pin.member
  chipDrivers : ∀ chip ∈ wiring.chips, Word chip.driver
  drivers : ∀ driver ∈ wiring.drivers, Word driver

namespace Worded

variable {wiring : Wiring}

theorem busReference (worded : Worded wiring) (position : Nat) :
    Word (referenceTo (wiring.buses[position]?.map Bus.symbol)) := by
  apply word_referenceTo
  intro name found
  obtain ⟨bus, there, rfl⟩ := Option.map_eq_some_iff.1 found
  exact worded.buses bus (List.mem_of_getElem? there)

theorem chipReference (worded : Worded wiring) (position : Option Nat) :
    Word (referenceTo ((position.bind fun found => wiring.chips[found]?).map Chip.symbol)) := by
  apply word_referenceTo
  intro name found
  obtain ⟨chip, there, rfl⟩ := Option.map_eq_some_iff.1 found
  obtain ⟨place, _, isThere⟩ := Option.bind_eq_some_iff.1 there
  exact worded.symbols chip (List.mem_of_getElem? isThere)

theorem previousReference (worded : Worded wiring) (position : Nat) :
    Word (wiring.previousReference position) := by
  cases position with
  | zero => exact (by decide : Word nullReference)
  | succ position => exact worded.busReference position

theorem busRecords (worded : Worded wiring) (record : SourceRecord)
    (member : record ∈ busRecords wiring) : Legible record := by
  obtain ⟨position, inside, rfl⟩ := List.mem_mapIdx.1 member
  refine ⟨worded.buses _ (List.getElem_mem inside), List.cons_ne_nil _ _, ?_⟩
  simp only [busRecord, List.forall_mem_cons, List.not_mem_nil, false_implies, implies_true,
    and_true]
  exact ⟨word_busSymbol _, worded.chipReference (some _), worded.previousReference position⟩

theorem mainRecord (worded : Worded wiring) : Legible (mainRecord wiring) := by
  have symbol : Word deviceBusSymbol := by decide
  refine ⟨symbol, List.cons_ne_nil _ _, ?_⟩
  intro entry member
  rw [List.mem_singleton.1 member]
  exact worded.previousReference _

theorem chipRecords (worded : Worded wiring) (record : SourceRecord)
    (member : record ∈ chipRecords wiring) : Legible record := by
  obtain ⟨chip, isChip, rfl⟩ := List.mem_map.1 member
  have driver := worded.chipDrivers chip isChip
  have entry : ∀ name, Word name → Word (addressOf (chip.driver ++ name)) := fun name word =>
    word_addressOf _ ((word_append _ _).2 ⟨driver, word⟩)
  refine ⟨worded.symbols chip isChip, List.cons_ne_nil _ _, ?_⟩
  simp only [chipRecord, List.forall_mem_cons, List.not_mem_nil, false_implies, implies_true,
    and_true]
  exact ⟨word_addressOf _ (worded.pins chip isChip), worded.busReference chip.bus,
    worded.chipReference chip.next, entry _ (by decide), entry _ (by decide), entry _ (by decide),
    entry _ (by decide)⟩

end Worded

theorem initializerLines_unbroken {wiring : Wiring} (worded : Worded wiring) :
    ∀ line ∈ initializerLines wiring, Unbroken line := by
  have opening : ∀ line ∈ ["void " ++ initializerSymbol ++ "(void)", "\x7b"], Unbroken line := by
    decide +kernel
  have buses : ∀ bus ∈ wiring.buses, Unbroken (busCall bus) := by
    intro bus isBus
    unfold busCall
    simp only [unbroken_append]
    exact ⟨⟨by decide, (word_addressOf _ (worded.buses bus isBus)).unbroken⟩, by decide⟩
  have drivers : ∀ driver ∈ wiring.drivers, Unbroken (driverCall driver) := by
    intro driver isDriver
    simp only [driverCall, unbroken_append]
    exact ⟨⟨by decide, (worded.drivers driver isDriver).unbroken⟩, by decide⟩
  have chips : ∀ chip ∈ wiring.chips, Unbroken (chipCall chip) := by
    intro chip isChip
    simp only [chipCall, unbroken_append]
    exact ⟨⟨⟨⟨by decide, (worded.chipDrivers chip isChip).unbroken⟩, by decide⟩,
      (word_addressOf _ (worded.symbols chip isChip)).unbroken⟩, by decide⟩
  simp only [initializerLines, List.forall_mem_append]
  exact ⟨⟨⟨⟨opening, List.forall_mem_map.2 buses⟩, List.forall_mem_map.2 drivers⟩,
    List.forall_mem_map.2 chips⟩, by decide⟩

theorem busSource_unbroken {wiring : Wiring} (worded : Worded wiring) :
    ∀ line ∈ busSource wiring, Unbroken line := by
  have records : ∀ type, Word type → ∀ records : List SourceRecord,
      (∀ record ∈ records, Legible record) → ∀ line ∈ records.map (recordLine type),
        Unbroken line := by
    intro type word records legible line member
    obtain ⟨record, inside, rfl⟩ := List.mem_map.1 member
    exact (legible record inside).unbroken type word
  have main : ∀ record ∈ [mainRecord wiring], Legible record :=
    List.forall_mem_singleton.2 worded.mainRecord
  rw [busSource_eq]
  simp only [List.forall_mem_append]
  have comment : ∀ title, Unbroken title → ∀ line ∈ sectionComment title, Unbroken line :=
    sectionComment_unbroken
  refine ⟨⟨⟨⟨⟨⟨⟨⟨⟨by decide, comment _ (by decide)⟩, ?_⟩, comment _ (by decide)⟩, ?_⟩,
    comment _ (by decide)⟩, ?_⟩, comment _ (by decide)⟩, ?_⟩, by decide⟩
  · exact records _ (by decide) _ worded.busRecords
  · exact records _ (by decide) _ main
  · exact records _ (by decide) _ worded.chipRecords
  · exact initializerLines_unbroken worded

theorem initializerLines_start (wiring : Wiring) (c : Char)
    (other : c ∉ ['v', ' ', '\x7b', '\x7d']) :
    ∀ line ∈ initializerLines wiring, line.toList.head? ≠ some c := by
  simp only [List.mem_cons, List.not_mem_nil, or_false, not_or] at other
  obtain ⟨letter, blank, opens, closes⟩ := other
  have calls : ∀ front rest : String, front.toList.head? = some ' ' →
      (front ++ rest).toList.head? ≠ some c := by
    intro front rest starts
    rw [head?_append_of_head? front rest ' ' starts]
    exact fun same => blank (Option.some.inj same).symm
  have buses : ∀ bus, (busCall bus).toList.head? ≠ some c := by
    intro bus
    unfold busCall
    simp only [String.append_assoc]
    exact calls _ _ rfl
  have drivers : ∀ driver, (driverCall driver).toList.head? ≠ some c := by
    intro driver
    unfold driverCall
    simp only [String.append_assoc]
    exact calls _ _ rfl
  have chips : ∀ chip, (chipCall chip).toList.head? ≠ some c := by
    intro chip
    unfold chipCall
    simp only [String.append_assoc]
    exact calls _ _ rfl
  have opening : ∀ line ∈ ["void " ++ initializerSymbol ++ "(void)", "\x7b"],
      line.toList.head? ≠ some c := by
    simp only [List.forall_mem_cons, List.not_mem_nil, false_implies, implies_true, and_true]
    refine ⟨?_, by simpa using Ne.symm opens⟩
    simpa [String.toList_append] using Ne.symm letter
  have closing : ∀ line ∈ ["\x7d"], line.toList.head? ≠ some c :=
    List.forall_mem_singleton.2 (by simpa using Ne.symm closes)
  simp only [initializerLines, List.forall_mem_append]
  exact ⟨⟨⟨⟨opening, List.forall_mem_map.2 fun bus _ => buses bus⟩,
    List.forall_mem_map.2 fun driver _ => drivers driver⟩,
    List.forall_mem_map.2 fun chip _ => chips chip⟩, closing⟩

theorem busSource_start (wiring : Wiring) (c : Char)
    (other : c ∉ ['/', '#', 'P', 'v', ' ', '\x7b', '\x7d']) :
    ∀ line ∈ busSource wiring, line.toList.head? ≠ some c := by
  obtain ⟨slash, hash, letter, routine⟩ : c ≠ '/' ∧ c ≠ '#' ∧ c ≠ 'P' ∧
      c ∉ ['v', ' ', '\x7b', '\x7d'] := by
    simpa only [List.mem_cons, not_or] using other
  have records : ∀ type, type.toList.head? = some 'P' → ∀ records : List SourceRecord,
      ∀ line ∈ records.map (recordLine type), line.toList.head? ≠ some c := by
    intro type starts records
    refine List.forall_mem_map.2 fun record _ => ?_
    rw [recordLine, String.append_assoc, head?_append_of_head? _ _ 'P' starts]
    exact fun same => letter (Option.some.inj same).symm
  have comment : ∀ title, ∀ line ∈ sectionComment title, line.toList.head? ≠ some c :=
    fun title => sectionComment_start title c slash
  have directive : ∀ line : String, line.toList.head? = some '#' →
      ∀ same ∈ [line], same.toList.head? ≠ some c := by
    intro line starts same member
    rw [List.mem_singleton.1 member, starts]
    exact fun isHash => hash (Option.some.inj isHash).symm
  have condition : ∀ line ∈ ["", busCondition], line.toList.head? ≠ some c :=
    List.forall_mem_cons.2 ⟨by simp, directive busCondition rfl⟩
  rw [busSource_eq]
  simp only [List.forall_mem_append]
  exact ⟨⟨⟨⟨⟨⟨⟨⟨⟨condition, comment _⟩, records _ rfl _⟩, comment _⟩, records _ rfl _⟩, comment _⟩,
    records _ rfl _⟩, comment _⟩, initializerLines_start wiring c routine⟩, directive _ rfl⟩

/-- The records of any type in the block of the buses. -/
theorem recordsIn_ending {wiring : Wiring} (worded : Worded wiring) (type : String)
    (starts : (type ++ " ").toList.head? = some 'P') :
    recordsIn type (ending wiring).sourceText =
      ((busRecords wiring).map (recordLine "PinsBus")).filterMap (record? type) ++
        (([mainRecord wiring].map (recordLine "PinsDeviceBus")).filterMap (record? type) ++
          ((chipRecords wiring).map (recordLine "PinsBusDevice")).filterMap (record? type)) := by
  have none : ∀ lines : List String, (∀ line ∈ lines, line.toList.head? ≠ some 'P') →
      lines.filterMap (record? type) = [] :=
    fun lines others => filterMap_record?_eq_nil type lines 'P' starts others
  rw [recordsIn, Block.sourceText, ending, linesIn_textOf _ (busSource_unbroken worded),
    busSource_eq]
  simp only [List.filterMap_append]
  have comment : ∀ title, (sectionComment title).filterMap (record? type) = [] :=
    fun title => none _ (sectionComment_start title 'P' (by decide))
  rw [none ["", busCondition] (by decide), comment, comment, comment, comment,
    none _ (initializerLines_start wiring 'P' (by decide)),
    none ["#endif"] (by decide), none [""] (by decide)]
  simp only [List.append_nil, List.nil_append, List.append_assoc]

theorem recordsIn_ending_buses {wiring : Wiring} (worded : Worded wiring) :
    recordsIn "PinsBus" (ending wiring).sourceText = busRecords wiring := by
  rw [recordsIn_ending worded _ rfl, filterMap_recordLine _ _ worded.busRecords,
    filterMap_recordLine_other _ _ _ (by decide) (by decide),
    filterMap_recordLine_other _ _ _ (by decide) (by decide), List.append_nil, List.append_nil]

theorem recordsIn_ending_main {wiring : Wiring} (worded : Worded wiring) :
    recordsIn "PinsDeviceBus" (ending wiring).sourceText = [mainRecord wiring] := by
  have main : ∀ record ∈ [mainRecord wiring], Legible record :=
    List.forall_mem_singleton.2 worded.mainRecord
  rw [recordsIn_ending worded _ rfl, filterMap_recordLine _ _ main,
    filterMap_recordLine_other _ _ _ (by decide) (by decide),
    filterMap_recordLine_other _ _ _ (by decide) (by decide), List.append_nil, List.nil_append]

theorem recordsIn_ending_chips {wiring : Wiring} (worded : Worded wiring) :
    recordsIn "PinsBusDevice" (ending wiring).sourceText = chipRecords wiring := by
  rw [recordsIn_ending worded _ rfl, filterMap_recordLine _ _ worded.chipRecords,
    filterMap_recordLine_other _ _ _ (by decide) (by decide),
    filterMap_recordLine_other _ _ _ (by decide) (by decide), List.nil_append, List.nil_append]

end PinTable.Listing
