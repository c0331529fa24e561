import PinTable.Proofs.Listing.BusGraph

set_option autoImplicit false

namespace PinTable

/-- Images under a map that confuses nothing are first seen where the items are. -/
theorem eraseDups_map {α β : Type} [DecidableEq α] [DecidableEq β] (image : α → β)
    (apart : ∀ first second, image first = image second → first = second) (items : List α) :
    (items.map image).eraseDups = items.eraseDups.map image := by
  induction items using List.reverseRecOn with
  | nil => rfl
  | append_singleton items item ih =>
      have seen : image item ∈ items.map image ↔ item ∈ items :=
        List.mem_map_of_injective fun _ _ => apart _ _
      rw [List.map_append, List.map_singleton, eraseDups_concat, eraseDups_concat, ih]
      simp only [seen]
      split
      · rfl
      · rw [List.map_append, List.map_singleton]

theorem BusId.symbol_eq_iff (first second : BusId) :
    first.symbol = second.symbol ↔ first = second :=
  ⟨symbol_inj, congrArg symbol⟩

namespace Listing

open Device (Connection)

variable {wiring : Wiring} {calls : List Connection}

theorem map_symbol_buses (follows : wiring.Follows calls) :
    wiring.buses.map Bus.symbol = (calls.map fun call => call.busId.symbol).eraseDups := by
  have ids : calls.map (fun call => call.busId.symbol) =
      (calls.map Connection.busId).map BusId.symbol := by
    rw [List.map_map]
    rfl
  rw [ids, eraseDups_map _ fun _ _ => BusId.symbol_inj, ← follows.map_id_buses, List.map_map]
  rfl

theorem exists_bus_of_call (follows : wiring.Follows calls) (call : Connection)
    (member : call ∈ calls) :
    ∃ bus ∈ wiring.buses, bus.id = call.busId ∧
      ∀ other ∈ wiring.buses, other.symbol = call.busId.symbol → other = bus := by
  have isKnown : call.busId ∈ wiring.buses.map Bus.id := by
    rw [follows.map_id_buses, List.mem_eraseDups]
    exact List.mem_map_of_mem member
  obtain ⟨bus, isBus, id⟩ := List.mem_map.1 isKnown
  refine ⟨bus, isBus, id, fun other isOther same => ?_⟩
  have ids : other.id = bus.id := (BusId.symbol_inj same).trans id.symm
  exact List.inj_on_of_nodup_map follows.nodup_ids isOther isBus ids

/-- The buses of a board, as they are found by their symbols alone. -/
structure FoundBySymbol (wiring : Wiring) (calls : List Connection) : Prop where
  /-- The symbols of the chips' buses, each where it is first seen. -/
  symbols : wiring.buses.map Bus.symbol = (calls.map fun call => call.busId.symbol).eraseDups
  once : (wiring.buses.map Bus.symbol).Nodup
  /-- Under the symbol of its bus, a chip finds this bus and no other. -/
  ofCall : ∀ call ∈ calls, ∃ bus ∈ wiring.buses, bus.id = call.busId ∧
    ∀ other ∈ wiring.buses, other.symbol = call.busId.symbol → other = bus
  /-- The walk by symbol from the main record visits every bus, the last one first, and ends. -/
  walk : Walk (Reading.symbolLinks Reading.SourceRecord.symbol (fun bus => bus.entries.getLast?)
    (busRecords wiring)) nullReference wiring.lastReference (busRecords wiring).reverse

/-- Buses of different base names, kinds or clocks have different symbols, whatever the base names
are, and so have all buses of a board. -/
theorem bus_symbols_distinct (calls : List Connection) :
    (∀ first second : BusId, first.symbol = second.symbol ↔ first = second) ∧
      FoundBySymbol (Wiring.empty.connectAll calls) calls := by
  have follows := Wiring.follows_connectAll calls
  refine ⟨BusId.symbol_eq_iff, ?_⟩
  constructor
  case symbols => exact map_symbol_buses follows
  case once =>
    rw [map_symbol_buses follows]
    exact nodup_eraseDups _
  case ofCall => exact fun call member => exists_bus_of_call follows call member
  case walk => exact walk_lastReference follows

end Listing

end PinTable
