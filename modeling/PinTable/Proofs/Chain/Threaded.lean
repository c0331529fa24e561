import PinTable.Proofs.Chain.Keyed
import PinTable.Proofs.Chain.Walk

set_option autoImplicit false

namespace PinTable

/-- What the heads, their index and the links between records say once records with these keys have
been added in this order. -/
structure Threaded {κ : Type} [DecidableEq κ] (keys : List κ) (heads : List (κ × Nat))
    (index : EntriesBy κ Nat) (nexts : List (Option Nat)) : Prop where
  length : nexts.length = keys.length
  ordered : heads.map Prod.fst = keys.eraseDups
  /-- Each head holds the position of the newest record. -/
  newest : ∀ (slot : Nat) (key : κ) (position : Nat), heads[slot]? = some (key, position) →
    (positionsOf key keys).getLast? = some position
  indexed : index = (heads.map Prod.fst).zipIdx
  /-- No link leads to the record itself or to a later one. -/
  backward : ∀ position next : Nat, nexts[position]? = some (some next) → next < position
  /-- The walk from the newest record visits the records of the key, newest first. -/
  walks : ∀ key, Walk (Links.ofRecords id nexts) none (positionsOf key keys).getLast?
    (positionsOf key keys).reverse

namespace Threaded

variable {κ : Type} [DecidableEq κ] {keys : List κ} {heads : List (κ × Nat)}
  {index : EntriesBy κ Nat} {nexts : List (Option Nat)}

theorem empty : Threaded ([] : List κ) [] [] [] where
  length := rfl
  ordered := rfl
  newest := by intro slot key position found; cases found
  indexed := rfl
  backward := by intro position next found; cases found
  walks := fun _ => .stop

/-- A key is found in the index at its place among the heads. -/
theorem head_of_found (threaded : Threaded keys heads index nexts) (key : κ) (slot : Nat)
    (found : Entries.find? key index = some slot) :
    ∃ position, heads[slot]? = some (key, position) := by
  rw [threaded.indexed] at found
  have named := (getElem?_of_find?_zipIdx key _ 0 slot found).2
  rw [Nat.sub_zero, List.getElem?_map] at named
  obtain ⟨⟨known, position⟩, there, rfl⟩ := Option.map_eq_some_iff.1 named
  exact ⟨position, there⟩

theorem find?_eq_none_iff (threaded : Threaded keys heads index nexts) (key : κ) :
    Entries.find? key index = none ↔ key ∉ keys := by
  rw [threaded.indexed, find?_zipIdx_eq_none, threaded.ordered, List.mem_eraseDups]

theorem slot_unique (threaded : Threaded keys heads index nexts) (key : κ)
    (first second one other : Nat) (left : heads[first]? = some (key, one))
    (right : heads[second]? = some (key, other)) : first = second := by
  have distinct : (heads.map Prod.fst).Nodup := by
    rw [threaded.ordered]
    exact nodup_eraseDups keys
  have inside : first < (heads.map Prod.fst).length := by
    rw [List.length_map]
    exact (List.getElem?_eq_some_iff.1 left).1
  apply (List.getElem?_inj inside distinct).1
  rw [List.getElem?_map, List.getElem?_map, left, right, Option.map_some, Option.map_some]

/-- Records that are there already are walked as before. -/
theorem walks_kept (threaded : Threaded keys heads index nexts) (key : κ) (next : Option Nat) :
    Walk (Links.ofRecords id (nexts ++ [next])) none (positionsOf key keys).getLast?
      (positionsOf key keys).reverse :=
  (threaded.walks key).mono fun start step leads =>
    Links.ofRecords_append id nexts [next] start step leads

/-- A new record that links to the newest of its key is walked first. -/
theorem walks_concat (threaded : Threaded keys heads index nexts) (added key : κ) :
    Walk (Links.ofRecords id (nexts ++ [(positionsOf added keys).getLast?])) none
      (positionsOf key (keys ++ [added])).getLast? (positionsOf key (keys ++ [added])).reverse := by
  -- The new record leads to the start of the old walk of its key; other keys do not see it.
  have kept := threaded.walks_kept key (positionsOf added keys).getLast?
  by_cases same : key = added
  · subst same
    rw [positionsOf_concat_self, List.getLast?_concat, List.reverse_concat]
    refine .step ?_ kept
    rw [Links.ofRecords_some, ← threaded.length, List.getElem?_concat_length, Option.map_some,
      id_eq]
  · rwa [positionsOf_concat_other keys added key same]

theorem backward_concat (threaded : Threaded keys heads index nexts) (link : Option Nat)
    (earlier : ∀ position, link = some position → position < keys.length) (position next : Nat)
    (found : (nexts ++ [link])[position]? = some (some next)) : next < position := by
  by_cases inside : position < nexts.length
  · rw [List.getElem?_append_left inside] at found
    exact threaded.backward position next found
  · rw [List.getElem?_append_right (Nat.le_of_not_lt inside), List.getElem?_singleton] at found
    split at found
    · have bound := earlier next (Option.some.inj found)
      have length := threaded.length
      omega
    · cases found

/-- A record of a known key: its head moves on to the record, which links to the newest until
then. -/
theorem push_known (threaded : Threaded keys heads index nexts) (key : κ) (slot position : Nat)
    (there : heads[slot]? = some (key, position)) :
    Threaded (keys ++ [key]) (heads.modify slot fun head => (head.1, keys.length)) index
      (nexts ++ [some position]) := by
  have newest := threaded.newest slot key position there
  have known : key ∈ keys := by
    rw [← List.mem_eraseDups, ← threaded.ordered]
    exact List.mem_map.2 ⟨(key, position), List.mem_of_getElem? there, rfl⟩
  -- Only the position in the head changes, so the keys and their index stay.
  have sameKeys : (heads.modify slot fun head => (head.1, keys.length)).map Prod.fst =
      heads.map Prod.fst := by
    apply List.ext_getElem?
    intro other
    rw [List.getElem?_map, List.getElem?_map, List.getElem?_modify]
    cases heads[other]? <;> simp
    split <;> rfl
  constructor
  case length => rw [List.length_append, List.length_append, threaded.length]; rfl
  case ordered => rw [sameKeys, threaded.ordered, eraseDups_concat, if_pos known]
  case newest =>
    intro other name place found
    by_cases same : slot = other
    · subst same
      rw [List.getElem?_modify_eq, there] at found
      cases found
      rw [positionsOf_concat_self, List.getLast?_concat]
    · rw [List.getElem?_modify_ne _ _ same] at found
      have different : name ≠ key := by
        rintro rfl
        exact same (threaded.slot_unique name slot other position place there found)
      rw [positionsOf_concat_other keys key name different]
      exact threaded.newest other name place found
  case indexed => rw [sameKeys, threaded.indexed]
  case backward =>
    apply threaded.backward_concat
    intro before same
    cases same
    exact (List.getElem?_eq_some_iff.1 ((mem_positionsOf key keys position).1
      (List.mem_of_getLast? newest))).1
  case walks =>
    intro other
    rw [← newest]
    exact threaded.walks_concat key other

/-- The first record of a key: a head is added for it, and the record links to none. -/
theorem push_fresh (threaded : Threaded keys heads index nexts) (key : κ) (fresh : key ∉ keys) :
    Threaded (keys ++ [key]) (heads ++ [(key, keys.length)])
      (Entries.put key heads.length index) (nexts ++ [none]) := by
  have unlinked : (positionsOf key keys).getLast? = none := by
    rw [positionsOf_eq_nil key keys fresh, List.getLast?_nil]
  constructor
  case length => rw [List.length_append, List.length_append, threaded.length]; rfl
  case ordered =>
    rw [List.map_append, threaded.ordered, eraseDups_concat, if_neg fresh]
    rfl
  case newest =>
    intro slot name position found
    by_cases inside : slot < heads.length
    · rw [List.getElem?_append_left inside] at found
      have different : name ≠ key := by
        rintro rfl
        apply fresh
        rw [← List.mem_eraseDups, ← threaded.ordered]
        exact List.mem_map.2 ⟨(name, position), List.mem_of_getElem? found, rfl⟩
      rw [positionsOf_concat_other keys key name different]
      exact threaded.newest slot name position found
    · rw [List.getElem?_append_right (Nat.le_of_not_lt inside), List.getElem?_singleton] at found
      split at found
      · cases found
        rw [positionsOf_concat_self, List.getLast?_concat]
      · cases found
  case indexed =>
    have absent : key ∉ Entries.keys index := by
      rw [← Entries.find?_eq_none_iff]
      exact (threaded.find?_eq_none_iff key).2 fresh
    rw [put_of_absent key _ index absent, threaded.indexed, List.map_append, List.zipIdx_append,
      List.length_map, Nat.zero_add]
    rfl
  case backward =>
    apply threaded.backward_concat
    intro position same
    cases same
  case walks =>
    intro other
    have walked := threaded.walks_concat key other
    rwa [unlinked] at walked

end Threaded

end PinTable
