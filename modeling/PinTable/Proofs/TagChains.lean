import PinTable.TagChains
import PinTable.Proofs.Chain.Threaded

set_option autoImplicit false

namespace PinTable.TagChains

/-- A pin with the tag that it is linked under. -/
abbrev Tagged : Type := String × QualifiedPin

def linkAll (tags : TagChains) (calls : List Tagged) : TagChains :=
  calls.foldl (fun tags call => (tags.link call.1 call.2).1) tags

/-- What linking pins in order tells, one answer a pin. -/
def answers (tags : TagChains) : List Tagged → List Linked
  | [] => []
  | call :: rest =>
      let linked := tags.link call.1 call.2
      linked.2 :: answers linked.1 rest

/-- The answer that a history of calls gives the next pin of a tag: the newest pin of the tag, and
whether there is none. -/
def answerAfter (earlier : List Tagged) (tag : String) : Linked :=
  ⟨(itemsOf tag earlier).getLast?, (itemsOf tag earlier).isEmpty⟩

/-- The store and its heads say what a history of calls does. -/
structure Follows (tags : TagChains) (calls : List Tagged) : Prop where
  pins : tags.nodes.map TagNode.pin = calls.map Prod.snd
  threaded : Threaded (calls.map Prod.fst) (tags.heads.map fun head => (head.tag, head.node))
    tags.byTag (tags.nodes.map TagNode.next)

namespace Follows

variable {tags : TagChains} {calls : List Tagged}

theorem empty : Follows TagChains.empty [] := ⟨rfl, Threaded.empty⟩

theorem pinAt?_eq (follows : Follows tags calls) (position : Nat) :
    tags.pinAt? position = (calls.map Prod.snd)[position]? := by
  rw [pinAt?, ← List.getElem?_map, follows.pins]

theorem length_nodes (follows : Follows tags calls) : tags.nodes.length = calls.length := by
  have same := congrArg List.length follows.pins
  rwa [List.length_map, List.length_map] at same

/-- The newest pin of a tag stands where the head of the tag says. -/
theorem newest (follows : Follows tags calls) (slot : Nat) (head : TagHead)
    (there : tags.heads[slot]? = some head) :
    (positionsOf head.tag (calls.map Prod.fst)).getLast? = some head.node ∧
      tags.pinAt? head.node = (itemsOf head.tag calls).getLast? := by
  have mapped : (tags.heads.map fun head => (head.tag, head.node))[slot]? =
      some (head.tag, head.node) := by
    rw [List.getElem?_map, there, Option.map_some]
  have last := follows.threaded.newest slot head.tag head.node mapped
  exact ⟨last, by rw [getLast?_itemsOf, last, follows.pinAt?_eq, Option.bind_some]⟩

theorem head_of_found (follows : Follows tags calls) (tag : String) (slot : Nat)
    (found : Entries.find? tag tags.byTag = some slot) :
    ∃ head, tags.heads[slot]? = some head ∧ head.tag = tag := by
  obtain ⟨position, there⟩ := follows.threaded.head_of_found tag slot found
  rw [List.getElem?_map] at there
  obtain ⟨head, isThere, same⟩ := Option.map_eq_some_iff.1 there
  exact ⟨head, isThere, congrArg Prod.fst same⟩

/-- Linking a pin under a known tag moves the head of the tag on to the pin. -/
theorem link_known (follows : Follows tags calls) (tag : String) (pin : QualifiedPin) (slot : Nat)
    (found : Entries.find? tag tags.byTag = some slot) :
    Follows (tags.link tag pin).1 (calls ++ [(tag, pin)]) ∧
      (tags.link tag pin).2 = answerAfter calls tag := by
  obtain ⟨head, there, rfl⟩ := follows.head_of_found tag slot found
  obtain ⟨last, newest⟩ := follows.newest slot head there
  have inside : head.node < tags.nodes.length := by
    have member := (mem_positionsOf _ _ _).1 (List.mem_of_getLast? last)
    have bound := (List.getElem?_eq_some_iff.1 member).1
    rwa [List.length_map, ← follows.length_nodes] at bound
  have mapped : (tags.heads.map fun head => (head.tag, head.node))[slot]? =
      some (head.tag, head.node) := by
    rw [List.getElem?_map, there, Option.map_some]
  simp only [TagChains.link, found, there, Option.map_some]
  constructor
  · constructor
    · rw [List.map_append, List.map_append, follows.pins]
      rfl
    · have pushed := follows.threaded.push_known head.tag slot head.node mapped
      rw [List.length_map, ← follows.length_nodes] at pushed
      have moved := map_modify (fun head : TagHead => (head.tag, head.node))
        (fun head => { head with node := tags.nodes.length })
        (fun head => (head.1, tags.nodes.length)) (fun _ => rfl) tags.heads slot
      rw [← moved] at pushed
      simpa using pushed
  · rw [Option.bind_some, pinAt?, List.getElem?_append_left inside, ← pinAt?, newest, answerAfter]
    have one : (itemsOf head.tag calls).isEmpty = false := by
      have stored : ∃ pin, tags.pinAt? head.node = some pin := by
        rw [pinAt?, List.getElem?_eq_getElem inside, Option.map_some]
        exact ⟨_, rfl⟩
      obtain ⟨stored, is⟩ := stored
      rw [newest] at is
      cases listed : itemsOf head.tag calls with
      | nil => rw [listed] at is; cases is
      | cons first rest => rfl
    rw [one]

/-- Linking a pin under a new tag adds a head for the tag. -/
theorem link_fresh (follows : Follows tags calls) (tag : String) (pin : QualifiedPin)
    (absent : Entries.find? tag tags.byTag = none) :
    Follows (tags.link tag pin).1 (calls ++ [(tag, pin)]) ∧
      (tags.link tag pin).2 = answerAfter calls tag := by
  have fresh := (follows.threaded.find?_eq_none_iff tag).1 absent
  simp only [TagChains.link, absent]
  constructor
  · constructor
    · rw [List.map_append, List.map_append, follows.pins]
      rfl
    · have pushed := follows.threaded.push_fresh tag fresh
      rw [List.length_map, List.length_map, ← follows.length_nodes] at pushed
      simpa using pushed
  · rw [answerAfter, itemsOf_eq_nil tag calls fresh]
    rfl

/-- One call more: the lists follow the longer history, and the answer is that of the history until
then. -/
theorem link (follows : Follows tags calls) (tag : String) (pin : QualifiedPin) :
    Follows (tags.link tag pin).1 (calls ++ [(tag, pin)]) ∧
      (tags.link tag pin).2 = answerAfter calls tag := by
  cases found : Entries.find? tag tags.byTag with
  | none => exact follows.link_fresh tag pin found
  | some slot => exact follows.link_known tag pin slot found

theorem linkAll (follows : Follows tags calls) (more : List Tagged) :
    Follows (tags.linkAll more) (calls ++ more) := by
  induction more generalizing tags calls with
  | nil => rwa [List.append_nil]
  | cons call rest ih =>
      have linked := ih (follows.link call.1 call.2).1
      rwa [List.append_assoc, List.singleton_append] at linked

/-- The head of a tag holds the position of its newest pin. -/
theorem headOf?_eq (follows : Follows tags calls) (tag : String) :
    tags.headOf? tag = (positionsOf tag (calls.map Prod.fst)).getLast? := by
  unfold headOf?
  cases found : Entries.find? tag tags.byTag with
  | none =>
      have fresh := (follows.threaded.find?_eq_none_iff tag).1 found
      rw [positionsOf_eq_nil tag _ fresh]
      rfl
  | some slot =>
      obtain ⟨head, there, rfl⟩ := follows.head_of_found tag slot found
      rw [(follows.newest slot head there).1, Option.bind_eq_bind, Option.bind_some, there]
      rfl

/-- The walk from the head of a tag visits the pins of the tag, the newest first. -/
theorem walk (follows : Follows tags calls) (tag : String) :
    Walk tags.links none (tags.headOf? tag)
      (positionsOf tag (calls.map Prod.fst)).reverse := by
  have walked := follows.threaded.walks tag
  rwa [Links.ofRecords_id, ← follows.headOf?_eq] at walked

theorem map_pinAt?_walk (follows : Follows tags calls) (tag : String) :
    (positionsOf tag (calls.map Prod.fst)).reverse.map tags.pinAt? =
      (itemsOf tag calls).reverse.map some := by
  rw [List.map_reverse, List.map_reverse, ← map_getElem?_positionsOf]
  congr 1
  exact List.map_congr_left fun position _ => follows.pinAt?_eq position

theorem pinsOf_eq (follows : Follows tags calls) (tag : String) :
    tags.pinsOf tag = (itemsOf tag calls).reverse := by
  have enough : (positionsOf tag (calls.map Prod.fst)).reverse.length ≤ tags.nodes.length := by
    rw [List.length_reverse, follows.length_nodes, ← List.length_map (f := Prod.fst)]
    exact length_positionsOf_le tag _
  rw [pinsOf, (follows.walk tag).follow_eq rfl _ enough]
  exact filterMap_of_map _ _ _ (follows.map_pinAt?_walk tag)

/-- Every head holds the position of a pin in the store, the newest of its tag. -/
theorem pinAt?_head (follows : Follows tags calls) (head : TagHead) (member : head ∈ tags.heads) :
    ∃ pin, tags.pinAt? head.node = some pin ∧ (itemsOf head.tag calls).getLast? = some pin := by
  obtain ⟨slot, there⟩ := List.mem_iff_getElem?.1 member
  obtain ⟨last, newest⟩ := follows.newest slot head there
  have inside := (List.getElem?_eq_some_iff.1
    ((mem_positionsOf _ _ _).1 (List.mem_of_getLast? last))).1
  rw [List.length_map, ← List.length_map (f := Prod.snd)] at inside
  refine ⟨(calls.map Prod.snd)[head.node], ?_, ?_⟩
  · rw [follows.pinAt?_eq, List.getElem?_eq_getElem inside]
  · rw [← newest, follows.pinAt?_eq, List.getElem?_eq_getElem inside]

/-- The heads tell every tag once, in the order of the first pins. -/
theorem map_headPins (follows : Follows tags calls) :
    tags.headPins.map Prod.fst = (calls.map Prod.fst).eraseDups := by
  have ordered := follows.threaded.ordered
  rw [List.map_map] at ordered
  rw [← ordered, headPins, List.map_filterMap]
  apply filterMap_of_map
  rw [List.map_map]
  apply List.map_congr_left
  intro head member
  obtain ⟨pin, found, _⟩ := follows.pinAt?_head head member
  rw [found]
  rfl

theorem getLast?_of_mem_headPins (follows : Follows tags calls) (tag : String)
    (pin : QualifiedPin) (member : (tag, pin) ∈ tags.headPins) :
    (itemsOf tag calls).getLast? = some pin := by
  obtain ⟨head, isHead, found⟩ := List.mem_filterMap.1 member
  obtain ⟨newest, there, last⟩ := follows.pinAt?_head head isHead
  rw [there] at found
  cases found
  exact last

theorem isEmpty_iff (follows : Follows tags calls) : tags.isEmpty = true ↔ calls = [] := by
  have ordered := follows.threaded.ordered
  rw [isEmpty, List.isEmpty_iff]
  constructor
  · intro none
    rw [none] at ordered
    cases calls with
    | nil => rfl
    | cons call rest =>
        rw [List.map_cons, List.eraseDups_cons] at ordered
        cases ordered
  · rintro rfl
    exact List.map_eq_nil_iff.1 (List.map_eq_nil_iff.1 ordered)

end Follows

theorem follows_linkAll (calls : List Tagged) : Follows (empty.linkAll calls) calls :=
  Follows.empty.linkAll calls

/-- Every answer of a run is that of the calls before it. -/
theorem getElem?_answers (tags : TagChains) (earlier calls : List Tagged)
    (follows : Follows tags earlier) (position : Nat) :
    (tags.answers calls)[position]? =
      calls[position]?.map fun call => answerAfter (earlier ++ calls.take position) call.1 := by
  induction calls generalizing tags earlier position with
  | nil => rfl
  | cons call rest ih =>
      obtain ⟨after, answer⟩ := follows.link call.1 call.2
      cases position with
      | zero => simp [answers, answer]
      | succ position => simpa [answers] using ih _ _ after position

/-- What the lists of pins by tag show once pins were linked in some order. -/
structure ListsOf (tags : TagChains) (calls : List Tagged) : Prop where
  /-- The walk from the head of a tag ends, inside the store, with the pins of the tag, newest
  first. -/
  walks : ∀ tag, ∃ positions, Walk tags.links none (tags.headOf? tag) positions ∧
    positions.map tags.pinAt? = (itemsOf tag calls).reverse.map some
  members : ∀ tag, tags.pinsOf tag = (itemsOf tag calls).reverse
  /-- Each tag has one head, in the order of first pins. -/
  headTags : tags.headPins.map Prod.fst = (calls.map Prod.fst).eraseDups
  headTagsOnce : (tags.headPins.map Prod.fst).Nodup
  /-- A head leads to the pin that was linked last. -/
  headPins : ∀ tag pin, (tag, pin) ∈ tags.headPins → (itemsOf tag calls).getLast? = some pin
  empty : tags.isEmpty = true ↔ calls = []
  /-- Linking a pin leaves the lists of other tags alone. -/
  others : ∀ tag pin other, other ≠ tag → (tags.link tag pin).1.pinsOf other = tags.pinsOf other

/-- After any run of calls from no tags, the answers and the lists are those of the history. -/
theorem lists_of_linked_pins (calls : List Tagged) :
    (∀ position : Nat, (empty.answers calls)[position]? =
      calls[position]?.map fun call => answerAfter (calls.take position) call.1) ∧
    ListsOf (empty.linkAll calls) calls := by
  have follows := follows_linkAll calls
  constructor
  · intro position
    exact getElem?_answers empty [] calls Follows.empty position
  · constructor
    case walks => exact fun tag => ⟨_, follows.walk tag, follows.map_pinAt?_walk tag⟩
    case members => exact follows.pinsOf_eq
    case headTags => exact follows.map_headPins
    case headTagsOnce =>
      rw [follows.map_headPins]
      exact nodup_eraseDups _
    case headPins => exact follows.getLast?_of_mem_headPins
    case empty => exact follows.isEmpty_iff
    case others =>
      intro tag pin other different
      rw [(follows.link tag pin).1.pinsOf_eq, follows.pinsOf_eq,
        itemsOf_concat_other calls tag other pin different]

end PinTable.TagChains
