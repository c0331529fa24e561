import PinTable.Chain
import PinTable.Entries
import PinTable.Symbol

set_option autoImplicit false

namespace PinTable

/-- A pin in the store, with the position of the pin before it in its list. -/
structure TagNode where
  pin : QualifiedPin
  next : Option Nat
  deriving DecidableEq, Repr

/-- A tag, with the position of its newest pin. -/
structure TagHead where
  tag : String
  node : Nat
  deriving DecidableEq, Repr

/-- The lists of pins by tag. -/
structure TagChains where
  /-- The store of pins, in the order of linking. -/
  nodes : List TagNode
  /-- The tags in the order of their first pins. -/
  heads : List TagHead
  /-- The position of each tag among the heads. -/
  byTag : Entries Nat
  deriving DecidableEq, Repr

/-- What linking a pin tells about its list. -/
structure Linked where
  /-- The pin that was the newest of the tag until then. -/
  next : Option QualifiedPin
  /-- The tag had no pins before. -/
  first : Bool
  deriving DecidableEq, Repr

namespace TagChains

def empty : TagChains := ⟨[], [], []⟩

def pinAt? (tags : TagChains) (position : Nat) : Option QualifiedPin :=
  tags.nodes[position]?.map TagNode.pin

/-- Puts a pin at the front of the list of a tag. -/
def link (tags : TagChains) (tag : String) (pin : QualifiedPin) : TagChains × Linked :=
  let node := tags.nodes.length
  match Entries.find? tag tags.byTag with
  | some index =>
      let previous := tags.heads[index]?.map TagHead.node
      let linked : TagChains :=
        { tags with
          nodes := tags.nodes ++ [⟨pin, previous⟩]
          heads := tags.heads.modify index fun head => { head with node := node } }
      (linked, ⟨previous.bind linked.pinAt?, false⟩)
  | none =>
      ({ nodes := tags.nodes ++ [⟨pin, none⟩]
         heads := tags.heads ++ [⟨tag, node⟩]
         byTag := Entries.put tag tags.heads.length tags.byTag },
        ⟨none, true⟩)

/-- The newest pin of each tag. -/
def headPins (tags : TagChains) : List (String × QualifiedPin) :=
  tags.heads.filterMap fun head => (tags.pinAt? head.node).map fun pin => (head.tag, pin)

/-- The position of the newest pin of a tag. -/
def headOf? (tags : TagChains) (tag : String) : Option Nat := do
  let index ← Entries.find? tag tags.byTag
  let head ← tags.heads[index]?
  return head.node

/-- The links between the positions of the store. -/
def links (tags : TagChains) : Links (Option Nat) Nat :=
  Links.ofRecords TagNode.next tags.nodes

/-- The pins that carry a tag, the one linked last first. No list is longer than the store. -/
def pinsOf (tags : TagChains) (tag : String) : List QualifiedPin :=
  (tags.links.follow tags.nodes.length (tags.headOf? tag)).filterMap tags.pinAt?

def isEmpty (tags : TagChains) : Bool := tags.heads.isEmpty

end TagChains

end PinTable
