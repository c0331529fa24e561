import Mathlib.Data.List.Forall2
import PinTable.DeviceTable
import PinTable.Wiring
import PinTable.Proofs.Chain.Threaded

set_option autoImplicit false

namespace PinTable

namespace Device.Connection

def busId (connection : Device.Connection) : BusId :=
  ⟨connection.pin.base, connection.pin.kind, connection.clock⟩

end Device.Connection

namespace Wiring

open Device (Connection)

def connectAll (wiring : Wiring) (calls : List Connection) : Wiring :=
  calls.foldl (fun wiring call => (wiring.connect call.pin call.driver call.clock).1) wiring

/-- The positions that connecting chips in order tells, one a chip. -/
def positions (wiring : Wiring) : List Connection → List Nat
  | [] => []
  | call :: rest =>
      let connected := wiring.connect call.pin call.driver call.clock
      connected.2 :: positions connected.1 rest

def headEntry (bus : Bus) : BusId × Nat := (bus.id, bus.head)

/-- The buses, chips and drivers say what a history of calls does. -/
structure Follows (wiring : Wiring) (calls : List Connection) : Prop where
  chips : wiring.chips.map (fun chip => (chip.pin, chip.driver)) =
    calls.map fun call => (call.pin, call.driver)
  threaded : Threaded (calls.map Connection.busId) (wiring.buses.map headEntry) wiring.byId
    (wiring.chips.map Chip.next)
  kinds : ∀ bus ∈ wiring.buses, bus.kind = bus.id.kind.busKind
  buses : wiring.chips.map (fun chip => (wiring.busOf? chip).map Bus.id) =
    calls.map fun call => some call.busId
  drivers : wiring.drivers = (calls.map Connection.driver).eraseDups

/-- The chip that a call connects, with the bus it is on. -/
structure Connects (wiring : Wiring) (call : Connection) (chip : Chip) : Prop where
  pin : chip.pin = call.pin
  driver : chip.driver = call.driver
  bus : ∃ bus, wiring.busOf? chip = some bus ∧ bus.id = call.busId

/-- What joining a bus does to the buses, before the chip itself is kept. -/
structure Joined (wiring joined : Wiring) (joining : Joining) (keys : List BusId) (id : BusId) :
    Prop where
  threaded : Threaded (keys ++ [id]) (joined.buses.map headEntry) joined.byId
    (wiring.chips.map Chip.next ++ [joining.next])
  kinds : ∀ bus ∈ joined.buses, bus.kind = bus.id.kind.busKind
  chips : joined.chips = wiring.chips
  drivers : joined.drivers = wiring.drivers
  /-- The chip's bus is the one that it joins. -/
  bus : joined.buses[joining.bus]?.map Bus.id = some id
  /-- The buses that were there keep their places. -/
  kept : ∀ (slot : Nat) (other : BusId), wiring.buses[slot]?.map Bus.id = some other →
    joined.buses[slot]?.map Bus.id = some other

namespace Follows

variable {wiring : Wiring} {calls : List Connection}

theorem empty : Follows Wiring.empty [] := by
  refine ⟨rfl, Threaded.empty, ?_, rfl, rfl⟩
  intro bus member
  cases member

theorem length_chips (follows : Follows wiring calls) : wiring.chips.length = calls.length := by
  have same := congrArg List.length follows.chips
  rwa [List.length_map, List.length_map] at same

/-- A bus that is known moves its head on to the next chip. -/
theorem join_known (follows : Follows wiring calls) (id : BusId) (slot : Nat)
    (found : Entries.find? id wiring.byId = some slot) :
    Joined wiring (wiring.join id).1 (wiring.join id).2 (calls.map Connection.busId) id := by
  obtain ⟨position, there⟩ := follows.threaded.head_of_found id slot found
  have pushed := follows.threaded.push_known id slot position there
  rw [List.getElem?_map] at there
  obtain ⟨bus, isThere, same⟩ := Option.map_eq_some_iff.1 there
  cases same
  simp only [join, found, isThere, Option.map_some]
  constructor
  case threaded =>
    rw [List.length_map, ← follows.length_chips] at pushed
    have moved := map_modify headEntry
      (fun bus => { bus with head := wiring.chips.length })
      (fun entry => (entry.1, wiring.chips.length)) (fun _ => rfl) wiring.buses slot
    rwa [← moved] at pushed
  case kinds =>
    intro other member
    obtain ⟨place, isOther⟩ := List.mem_iff_getElem?.1 member
    rw [List.getElem?_modify] at isOther
    obtain ⟨old, isOld, same⟩ := Option.map_eq_some_iff.1 isOther
    have kind := follows.kinds old (List.mem_of_getElem? isOld)
    rw [← same]
    split <;> exact kind
  case chips => rfl
  case drivers => rfl
  case bus =>
    rw [List.getElem?_modify_eq, isThere]
    rfl
  case kept =>
    intro place other isOther
    rw [List.getElem?_modify, ← isOther]
    cases wiring.buses[place]? with
    | none => rfl
    | some old =>
        simp only [Option.map_eq_map, Option.map_some]
        split <;> rfl

/-- A bus that is not known is made, with the next chip as its newest. -/
theorem join_fresh (follows : Follows wiring calls) (id : BusId)
    (absent : Entries.find? id wiring.byId = none) :
    Joined wiring (wiring.join id).1 (wiring.join id).2 (calls.map Connection.busId) id := by
  have fresh := (follows.threaded.find?_eq_none_iff id).1 absent
  have pushed := follows.threaded.push_fresh id fresh
  rw [List.length_map, List.length_map, ← follows.length_chips] at pushed
  simp only [join, absent]
  constructor
  case threaded =>
    rw [List.map_append]
    exact pushed
  case kinds =>
    intro bus member
    rcases List.mem_append.1 member with old | new
    · exact follows.kinds bus old
    · rw [List.mem_singleton.1 new]
  case chips => rfl
  case drivers => rfl
  case bus =>
    rw [List.getElem?_concat_length]
    rfl
  case kept =>
    intro slot other isOther
    obtain ⟨bus, there, same⟩ := Option.map_eq_some_iff.1 isOther
    rw [List.getElem?_append_left (List.getElem?_eq_some_iff.1 there).1, isOther]

theorem join (follows : Follows wiring calls) (id : BusId) :
    Joined wiring (wiring.join id).1 (wiring.join id).2 (calls.map Connection.busId) id := by
  cases found : Entries.find? id wiring.byId with
  | none => exact follows.join_fresh id found
  | some slot => exact follows.join_known id slot found

/-- Every chip is on the bus at the position that it holds. -/
theorem busOf?_chip (follows : Follows wiring calls) (position : Nat) (chip : Chip)
    (there : wiring.chips[position]? = some chip) :
    ∃ call bus, calls[position]? = some call ∧ wiring.busOf? chip = some bus ∧
      bus.id = call.busId := by
  have same := congrArg (fun list : List (Option BusId) => list[position]?) follows.buses
  simp only [List.getElem?_map, there, Option.map_some] at same
  obtain ⟨call, isCall, found⟩ := Option.map_eq_some_iff.1 same.symm
  obtain ⟨bus, isBus, id⟩ := Option.map_eq_some_iff.1 found.symm
  exact ⟨call, bus, isCall, isBus, id⟩

theorem noteDriver_eraseDups (drivers : List String) (driver : String) :
    noteDriver drivers.eraseDups driver = (drivers ++ [driver]).eraseDups := by
  rw [eraseDups_concat, noteDriver]
  simp only [List.mem_eraseDups]

/-- One chip more: the wiring follows the longer history. -/
theorem connect (follows : Follows wiring calls) (call : Connection) :
    Follows (wiring.connect call.pin call.driver call.clock).1 (calls ++ [call]) := by
  have joined := follows.join call.busId
  have made : wiring.connect call.pin call.driver call.clock =
      ({ (wiring.join call.busId).1 with
         chips := (wiring.join call.busId).1.chips ++
           [⟨call.pin, call.driver, (wiring.join call.busId).2.bus,
             (wiring.join call.busId).2.next⟩]
         drivers := noteDriver (wiring.join call.busId).1.drivers call.driver },
        wiring.chips.length) := rfl
  rw [made]
  -- From here on only what joining guarantees counts, not how it is done.
  generalize (wiring.join call.busId).1 = after at joined ⊢
  generalize (wiring.join call.busId).2 = joining at joined ⊢
  rw [joined.chips, joined.drivers, follows.drivers, noteDriver_eraseDups]
  constructor
  case chips =>
    rw [List.map_append, List.map_append, follows.chips]
    rfl
  case threaded =>
    rw [List.map_append, List.map_append]
    exact joined.threaded
  case kinds => exact joined.kinds
  case buses =>
    rw [List.map_append, List.map_append, ← follows.buses]
    congr 1
    · apply List.map_congr_left
      intro chip member
      obtain ⟨position, there⟩ := List.mem_iff_getElem?.1 member
      obtain ⟨_, bus, _, isBus, _⟩ := follows.busOf?_chip position chip there
      have kept := joined.kept chip.bus bus.id
        (by rw [show wiring.buses[chip.bus]? = some bus from isBus, Option.map_some])
      rw [isBus, Option.map_some]
      exact kept
    · rw [List.map_singleton, List.map_singleton]
      exact congrArg (fun id => [id]) joined.bus
  case drivers =>
    rw [List.map_append]
    rfl

theorem connectAll (follows : Follows wiring calls) (more : List Connection) :
    Follows (wiring.connectAll more) (calls ++ more) := by
  induction more generalizing wiring calls with
  | nil => rwa [List.append_nil]
  | cons call rest ih =>
      have connected := ih (follows.connect call)
      rwa [List.append_assoc, List.singleton_append] at connected

theorem head_newest (follows : Follows wiring calls) (bus : Bus) (member : bus ∈ wiring.buses) :
    (positionsOf bus.id (calls.map Connection.busId)).getLast? = some bus.head := by
  obtain ⟨slot, there⟩ := List.mem_iff_getElem?.1 member
  apply follows.threaded.newest slot bus.id bus.head
  rw [List.getElem?_map, there]
  rfl

/-- The walk from the head of a bus visits the chips on the bus, the newest first. -/
theorem walk (follows : Follows wiring calls) (bus : Bus) (member : bus ∈ wiring.buses) :
    Walk wiring.links none (some bus.head)
      (positionsOf bus.id (calls.map Connection.busId)).reverse := by
  have walked := follows.threaded.walks bus.id
  rwa [Links.ofRecords_id, follows.head_newest bus member] at walked

theorem head_lt (follows : Follows wiring calls) (bus : Bus) (member : bus ∈ wiring.buses) :
    bus.head < wiring.chips.length := by
  have there := (mem_positionsOf _ _ _).1
    (List.mem_of_getLast? (follows.head_newest bus member))
  have inside := (List.getElem?_eq_some_iff.1 there).1
  rwa [List.length_map, ← follows.length_chips] at inside

theorem bus_lt (follows : Follows wiring calls) (chip : Chip) (member : chip ∈ wiring.chips) :
    chip.bus < wiring.buses.length := by
  obtain ⟨position, there⟩ := List.mem_iff_getElem?.1 member
  obtain ⟨_, _, _, isBus, _⟩ := follows.busOf?_chip position chip there
  exact (List.getElem?_eq_some_iff.1 isBus).1

theorem next_lt (follows : Follows wiring calls) (position : Nat) (chip : Chip)
    (there : wiring.chips[position]? = some chip) (next : Nat) (linked : chip.next = some next) :
    next < position := by
  apply follows.threaded.backward
  rw [List.getElem?_map, there, Option.map_some, linked]

theorem index_lt (follows : Follows wiring calls) (entry : BusId × Nat)
    (member : entry ∈ wiring.byId) : entry.2 < wiring.buses.length := by
  rw [follows.threaded.indexed] at member
  have inside := (List.getElem?_eq_some_iff.1 (List.mem_zipIdx_iff_getElem?.1 member)).1
  rwa [List.length_map, List.length_map] at inside

theorem map_id_buses (follows : Follows wiring calls) :
    wiring.buses.map Bus.id = (calls.map Connection.busId).eraseDups := by
  rw [← follows.threaded.ordered, List.map_map]
  rfl

theorem nodup_ids (follows : Follows wiring calls) : (wiring.buses.map Bus.id).Nodup := by
  rw [follows.map_id_buses]
  exact nodup_eraseDups _

/-- Each call connects the chip at its place. -/
theorem connects (follows : Follows wiring calls) :
    List.Forall₂ (Connects wiring) calls wiring.chips := by
  refine List.forall₂_iff_zip.2 ⟨follows.length_chips.symm, ?_⟩
  intro call chip member
  obtain ⟨position, there⟩ := List.mem_iff_getElem?.1 member
  obtain ⟨isCall, isChip⟩ := List.getElem?_zip_eq_some.1 there
  obtain ⟨known, bus, isKnown, isBus, id⟩ := follows.busOf?_chip position chip isChip
  cases isCall.symm.trans isKnown
  have same := congrArg (fun list : List (QualifiedPin × String) => list[position]?) follows.chips
  simp only [List.getElem?_map, isCall, isChip, Option.map_some, Option.some_inj] at same
  obtain ⟨pin, driver⟩ := Prod.mk.inj same
  exact ⟨pin, driver, bus, isBus, id⟩

/-- Chips share a bus just if nothing tells their buses apart. -/
theorem bus_eq_iff (follows : Follows wiring calls) {one other : Chip} {first second : Bus}
    (isFirst : wiring.busOf? one = some first) (isSecond : wiring.busOf? other = some second) :
    one.bus = other.bus ↔ first.id = second.id := by
  unfold busOf? at isFirst isSecond
  constructor
  · intro same
    rw [same, isSecond, Option.some_inj] at isFirst
    rw [isFirst]
  · intro same
    have inside := (List.getElem?_eq_some_iff.1 isFirst).1
    have ids : (wiring.buses.map Bus.id)[one.bus]? = (wiring.buses.map Bus.id)[other.bus]? := by
      rw [List.getElem?_map, List.getElem?_map, isFirst, isSecond, Option.map_some,
        Option.map_some, same]
    exact (List.getElem?_inj (by rwa [List.length_map]) follows.nodup_ids).1 ids

end Follows

theorem follows_connectAll (calls : List Connection) : Follows (empty.connectAll calls) calls :=
  Follows.empty.connectAll calls

theorem positions_eq (wiring : Wiring) (earlier calls : List Connection)
    (follows : Follows wiring earlier) :
    wiring.positions calls = List.range' earlier.length calls.length := by
  induction calls generalizing wiring earlier with
  | nil => rfl
  | cons call rest ih =>
      have connected := ih _ _ (follows.connect call)
      rw [List.length_append, List.length_singleton] at connected
      rw [positions, connected, List.length_cons, List.range'_succ]
      exact congrArg (· :: _) follows.length_chips

/-- Every position that the buses, the chips and the index hold leads to a record. A chip's next
position leads to a chip that was connected before it. -/
structure InRange (wiring : Wiring) : Prop where
  heads : ∀ bus ∈ wiring.buses, bus.head < wiring.chips.length
  buses : ∀ chip ∈ wiring.chips, chip.bus < wiring.buses.length
  nexts : ∀ (position : Nat) (chip : Chip), wiring.chips[position]? = some chip →
    ∀ next, chip.next = some next → next < position
  index : ∀ entry ∈ wiring.byId, entry.2 < wiring.buses.length

/-- What the buses, chips and drivers show once chips were connected in some order. -/
structure GraphOf (wiring : Wiring) (calls : List Connection) : Prop where
  inRange : wiring.InRange
  /-- The chips stand in the order of the calls, with their drivers. -/
  chips : wiring.chips.map (fun chip => (chip.pin, chip.driver)) =
    calls.map fun call => (call.pin, call.driver)
  /-- The buses stand in the order of their first chips, each once. -/
  buses : wiring.buses.map Bus.id = (calls.map Connection.busId).eraseDups
  busesOnce : (wiring.buses.map Bus.id).Nodup
  /-- Each chip is on the bus of its own base name, kind and clock. -/
  busOf : wiring.chips.map (fun chip => (wiring.busOf? chip).map Bus.id) =
    calls.map fun call => some call.busId
  /-- The head of a bus is the chip that was connected to it last. -/
  heads : ∀ bus ∈ wiring.buses,
    (positionsOf bus.id (calls.map Connection.busId)).getLast? = some bus.head
  /-- The links from the head lead to just the chips on the bus, newest first, and end. -/
  walks : ∀ bus ∈ wiring.buses, Walk wiring.links none (some bus.head)
    (positionsOf bus.id (calls.map Connection.busId)).reverse
  drivers : wiring.drivers = (calls.map Connection.driver).eraseDups
  kinds : ∀ bus ∈ wiring.buses, bus.kind = .spi ↔ bus.id.kind = .spi

/-- After any run of calls from no buses, the positions that were told and the buses, chips and
drivers are those of the history. -/
theorem graph_of_connected_chips (calls : List Connection) :
    empty.positions calls = List.range calls.length ∧ GraphOf (empty.connectAll calls) calls := by
  have follows := follows_connectAll calls
  constructor
  · rw [positions_eq empty [] calls Follows.empty, List.range_eq_range']
    rfl
  · constructor
    case inRange =>
      exact ⟨follows.head_lt, follows.bus_lt, follows.next_lt, follows.index_lt⟩
    case chips => exact follows.chips
    case buses => exact follows.map_id_buses
    case busesOnce =>
      rw [follows.map_id_buses]
      exact nodup_eraseDups _
    case busOf => exact follows.buses
    case heads => exact follows.head_newest
    case walks => exact follows.walk
    case drivers => exact follows.drivers
    case kinds =>
      intro bus member
      rw [follows.kinds bus member]
      cases bus.id.kind <;> simp [PinKind.busKind]

end Wiring

end PinTable
