import PinTable.DeviceTable
import PinTable.Proofs.TagChains

set_option autoImplicit false

namespace PinTable

/-- A pin that a device declares, with its tag. -/
structure Declared where
  pin : QualifiedPin
  tag : Option String
  deriving DecidableEq, Repr

namespace Declared

def ofPin (base : String) (kind : PinKind) (pin : Pin) : Declared :=
  ⟨⟨base, kind, pin.name⟩, pin.tag⟩

/-- The pins that carry a tag, in order. -/
def pinsWith (tag : String) (declared : List Declared) : List QualifiedPin :=
  (declared.filter fun pin => pin.tag = some tag).map Declared.pin

theorem pinsWith_append (tag : String) (first second : List Declared) :
    pinsWith tag (first ++ second) = pinsWith tag first ++ pinsWith tag second := by
  rw [pinsWith, List.filter_append, List.map_append]
  rfl

theorem pinsWith_concat_self (tag : String) (declared : List Declared) (pin : Declared)
    (same : pin.tag = some tag) :
    pinsWith tag (declared ++ [pin]) = pinsWith tag declared ++ [pin.pin] := by
  rw [pinsWith_append]
  simp [pinsWith, same]

theorem pinsWith_concat_other (tag : String) (declared : List Declared) (pin : Declared)
    (different : pin.tag ≠ some tag) :
    pinsWith tag (declared ++ [pin]) = pinsWith tag declared := by
  rw [pinsWith_append]
  simp [pinsWith, different]

/-- The pins that carry a tag of any name, with their tags. -/
def tagged (declared : List Declared) : List TagChains.Tagged :=
  declared.filterMap fun pin => pin.tag.map fun tag => (tag, pin.pin)

/-- The pin that a pin is linked to after others: the last of them with its tag. -/
def linkAfter (earlier : List Declared) (pin : Declared) : Option QualifiedPin :=
  pin.tag.bind fun tag => (pinsWith tag earlier).getLast?

/-- Pins in order, each with the pin that it is linked to. -/
def linksAfter (earlier : List Declared) :
    List Declared → List (QualifiedPin × Option QualifiedPin)
  | [] => []
  | pin :: rest => (pin.pin, linkAfter earlier pin) :: linksAfter (earlier ++ [pin]) rest

theorem linksAfter_append (earlier first second : List Declared) :
    linksAfter earlier (first ++ second) =
      linksAfter earlier first ++ linksAfter (earlier ++ first) second := by
  induction first generalizing earlier with
  | nil => rw [List.nil_append, List.append_nil]; rfl
  | cons pin rest ih =>
      rw [List.cons_append, linksAfter, ih, List.append_assoc]
      rfl

/-- Among others, a pin is linked to the last one before it with its tag. -/
theorem mem_linksAfter (front back : List Declared) (pin : Declared) :
    (pin.pin, linkAfter front pin) ∈ linksAfter [] (front ++ pin :: back) := by
  rw [linksAfter_append]
  exact List.mem_append_right _ (List.mem_cons_self ..)

theorem map_fst_linksAfter (earlier declared : List Declared) :
    (linksAfter earlier declared).map Prod.fst = declared.map Declared.pin := by
  induction declared generalizing earlier with
  | nil => rfl
  | cons pin rest ih => rw [linksAfter, List.map_cons, ih, List.map_cons]

/-- A pin is linked to pins before it. -/
theorem mem_of_mem_linksAfter (earlier declared : List Declared) (pin next : QualifiedPin)
    (linked : (pin, some next) ∈ linksAfter earlier declared) :
    next ∈ (earlier ++ declared).map Declared.pin := by
  induction declared generalizing earlier with
  | nil => cases linked
  | cons first rest ih =>
      rcases List.mem_cons.1 linked with same | later
      · obtain ⟨tag, _, last⟩ := Option.bind_eq_some_iff.1 (Prod.mk.inj same).2.symm
        obtain ⟨known, isKnown, rfl⟩ := List.mem_map.1 (List.mem_of_getLast? last)
        exact List.mem_map.2 ⟨known, List.mem_append_left _ (List.mem_filter.1 isKnown).1, rfl⟩
      · have found := ih (earlier ++ [first]) later
        rwa [List.append_assoc] at found

theorem tagged_append (first second : List Declared) :
    tagged (first ++ second) = tagged first ++ tagged second := List.filterMap_append

theorem itemsOf_tagged (tag : String) (declared : List Declared) :
    itemsOf tag (tagged declared) = pinsWith tag declared := by
  -- A pin without a tag adds nothing to either side.
  have entry : ∀ pin : Declared, itemsOf tag (tagged [pin]) = pinsWith tag [pin] := by
    rintro ⟨pin, _ | other⟩
    · rfl
    · by_cases same : other = tag <;> simp [tagged, itemsOf, pinsWith, same]
  induction declared with
  | nil => rfl
  | cons pin rest ih =>
      have items : itemsOf tag (tagged (pin :: rest)) =
          itemsOf tag (tagged [pin]) ++ itemsOf tag (tagged rest) := by
        rw [← List.singleton_append, tagged_append, itemsOf, List.filter_append, List.map_append]
        rfl
      rw [items, entry, ih, ← pinsWith_append]
      rfl

theorem map_fst_tagged (declared : List Declared) :
    (tagged declared).map Prod.fst = declared.filterMap Declared.tag := by
  rw [tagged, List.map_filterMap]
  congr 1
  funext pin
  cases pin.tag <;> rfl

end Declared

namespace Device

/-- The pins of a device, over all of its groups. -/
def declared (device : Device) : List Declared :=
  device.groups.flatMap fun group => group.pins.map (Declared.ofPin device.base group.kind)

end Device

namespace DeviceTable

open Declared

/-- A pin more is a declaration more in the history of the lists. -/
theorem linkPin_follows (base : String) (kind : PinKind) (tags : TagChains)
    (earlier : List Declared) (follows : tags.Follows (tagged earlier)) (pin : Pin) :
    (linkPin base kind tags pin).1.Follows (tagged (earlier ++ [ofPin base kind pin])) ∧
      (linkPin base kind tags pin).2.bind Linked.next =
        linkAfter earlier (ofPin base kind pin) := by
  unfold linkPin linkAfter ofPin
  cases found : pin.tag with
  | none =>
      refine ⟨?_, rfl⟩
      rw [tagged_append]
      simpa [tagged] using follows
  | some tag =>
      obtain ⟨after, answer⟩ := follows.link tag ⟨base, kind, pin.name⟩
      refine ⟨?_, ?_⟩
      · rw [tagged_append]
        exact after
      · show (some (tags.link tag ⟨base, kind, pin.name⟩).2).bind Linked.next = _
        rw [Option.bind_some, Option.bind_some, answer, ← itemsOf_tagged]
        rfl

/-- The rows of pins in order, after a history of declarations. -/
theorem rowsOf_follows (signals : SignalIndex) (base : String) (kind : PinKind) (pins : List Pin)
    (tags : TagChains) (earlier : List Declared) (follows : tags.Follows (tagged earlier)) :
    (rowsOf signals base kind tags pins).2.Follows
        (tagged (earlier ++ pins.map (ofPin base kind))) ∧
      (rowsOf signals base kind tags pins).1.map (fun row => (row.pin, row.next)) =
        linksAfter earlier (pins.map (ofPin base kind)) := by
  induction pins generalizing tags earlier with
  | nil =>
      rw [List.map_nil, List.append_nil]
      exact ⟨follows, rfl⟩
  | cons pin rest ih =>
      -- What the first pin leaves is what the others start from.
      obtain ⟨after, linked⟩ := linkPin_follows base kind tags earlier follows pin
      obtain ⟨last, others⟩ := ih _ _ after
      rw [List.append_assoc] at last
      refine ⟨last, ?_⟩
      rw [List.map_cons, linksAfter, ← others, ← linked]
      rfl

theorem groupsOf_follows (signals : SignalIndex) (base : String) (groups : List PinGroup)
    (tags : TagChains) (earlier : List Declared) (follows : tags.Follows (tagged earlier)) :
    (groupsOf signals base tags groups).2.Follows
        (tagged (earlier ++ groups.flatMap fun group => group.pins.map (ofPin base group.kind))) ∧
      ((groupsOf signals base tags groups).1.flatMap GroupTable.rows).map
          (fun row => (row.pin, row.next)) =
        linksAfter earlier
          (groups.flatMap fun group => group.pins.map (ofPin base group.kind)) := by
  induction groups generalizing tags earlier with
  | nil =>
      rw [List.flatMap_nil, List.append_nil]
      exact ⟨follows, rfl⟩
  | cons group rest ih =>
      obtain ⟨after, rows⟩ := rowsOf_follows signals base group.kind group.pins tags earlier follows
      obtain ⟨last, others⟩ := ih _ _ after
      rw [List.append_assoc] at last
      refine ⟨last, ?_⟩
      rw [List.flatMap_cons, linksAfter_append, ← others, ← rows, ← List.map_append]
      rfl

theorem ofDevice_follows (signals : SignalIndex) (device : Device) :
    (ofDevice signals device).tags.Follows (tagged device.declared) :=
  (groupsOf_follows signals device.base device.groups _ [] TagChains.Follows.empty).1

/-- Each row of a device is linked to the last pin before it with its tag. -/
theorem links_ofDevice (signals : SignalIndex) (device : Device) :
    (ofDevice signals device).rows.map (fun row => (row.pin, row.next)) =
      linksAfter [] device.declared :=
  (groupsOf_follows signals device.base device.groups _ [] TagChains.Follows.empty).2

/-- What is read off the rows of pins is what the pins say, if linking has no part in it. -/
theorem map_rowsOf {α : Type} (signals : SignalIndex) (base : String) (kind : PinKind)
    (read : Row → α) (image : Pin → α)
    (each : ∀ pin linked, read (rowOf signals base kind pin linked) = image pin)
    (pins : List Pin) (tags : TagChains) :
    (rowsOf signals base kind tags pins).1.map read = pins.map image := by
  induction pins generalizing tags with
  | nil => rfl
  | cons pin rest ih =>
      rw [List.map_cons, ← ih (linkPin base kind tags pin).1,
        ← each pin (linkPin base kind tags pin).2]
      rfl

/-- The groups of a table are those of the device, with a row for each pin in its order. -/
theorem map_groupsOf {α : Type} (signals : SignalIndex) (base : String) (read : Row → α)
    (image : PinKind → Pin → α)
    (each : ∀ kind pin linked, read (rowOf signals base kind pin linked) = image kind pin)
    (groups : List PinGroup) (tags : TagChains) :
    (groupsOf signals base tags groups).1.map (fun table => (table.kind, table.rows.map read)) =
      groups.map fun group => (group.kind, group.pins.map (image group.kind)) := by
  induction groups generalizing tags with
  | nil => rfl
  | cons group rest ih =>
      rw [List.map_cons, ← ih (rowsOf signals base group.kind tags group.pins).2,
        ← map_rowsOf signals base group.kind read _ (each group.kind) group.pins tags]
      rfl

theorem pins_groupsOf (signals : SignalIndex) (base : String) (groups : List PinGroup)
    (tags : TagChains) :
    (groupsOf signals base tags groups).1.map (fun table => (table.kind, table.rows.map Row.pin)) =
      groups.map fun group =>
        (group.kind, group.pins.map fun pin => ⟨base, group.kind, pin.name⟩) :=
  map_groupsOf signals base Row.pin _ (fun _ _ _ => rfl) groups tags

theorem exists_pin_of_mem_rowsOf (signals : SignalIndex) (base : String) (kind : PinKind)
    (tags : TagChains) (pins : List Pin) (row : Row)
    (member : row ∈ (rowsOf signals base kind tags pins).1) :
    ∃ pin ∈ pins, ∃ linked, row = rowOf signals base kind pin linked := by
  induction pins generalizing tags with
  | nil => cases member
  | cons pin rest ih =>
      rcases List.mem_cons.1 member with same | later
      · exact ⟨pin, List.mem_cons_self .., _, same⟩
      · obtain ⟨other, isOther, made⟩ := ih _ later
        exact ⟨other, List.mem_cons_of_mem _ isOther, made⟩

theorem exists_group_of_mem_groupsOf (signals : SignalIndex) (base : String) (tags : TagChains)
    (groups : List PinGroup) (table : GroupTable)
    (member : table ∈ (groupsOf signals base tags groups).1) :
    ∃ group ∈ groups, table.kind = group.kind ∧ ∀ row ∈ table.rows, ∃ pin ∈ group.pins,
      ∃ linked, row = rowOf signals base group.kind pin linked := by
  induction groups generalizing tags with
  | nil => cases member
  | cons group rest ih =>
      rcases List.mem_cons.1 member with rfl | later
      · refine ⟨group, List.mem_cons_self .., rfl, ?_⟩
        exact exists_pin_of_mem_rowsOf signals base group.kind tags group.pins
      · obtain ⟨other, isOther, made⟩ := ih _ later
        exact ⟨other, List.mem_cons_of_mem _ isOther, made⟩

end DeviceTable

end PinTable
