import PinTable.Document
import PinTable.Outcome
import PinTable.Signal.Layout
import PinTable.Symbol

set_option autoImplicit false

namespace PinTable

/-- The reference of each signal by its name. -/
structure SignalIndex where
  references : Entries String

namespace SignalIndex

def empty : SignalIndex := ⟨[]⟩

def referenceTo? (index : SignalIndex) (name : String) : Option String :=
  Entries.find? name index.references

def size (index : SignalIndex) : Nat := index.references.length

/-- The member of a memory block that holds a signal, as `&device.block.signal`. -/
def memberReference (device block signal : String) : String :=
  addressOf (device ++ "." ++ block ++ "." ++ signal)

/-- Adds a signal; an earlier one of its name is replaced, and one without a name is left out. -/
def add (device block : String) (index : SignalIndex) (signal : Signal) : SignalIndex :=
  match signal.name with
  | none => index
  | some name => ⟨Entries.put name (memberReference device block name) index.references⟩

/-- Adds the signals of a block, unless the block has no name. -/
def addBlock (device : String) (index : SignalIndex) (block : MemoryBlock) : SignalIndex :=
  match block.name with
  | none => index
  | some name => block.groups.flatten.foldl (add device name) index

/-- The warnings about blocks, one for each that has no name. -/
def blockWarnings (document : String) (blocks : List MemoryBlock) : List Warning :=
  blocks.filterMap fun block => if block.name.isNone then some (.unnamedBlock document) else none

/-- The signals of a document. Without a name or without blocks it has none. -/
def ofDocument {ε : Type} (document : String) (signals : SignalDocument) : Outcome ε SignalIndex :=
  match signals.name, signals.blocks with
  | none, _ => .reporting [.warned (.signalsMissingKey document "name")] empty
  | some _, none => .reporting [.warned (.signalsMissingKey document "mblk")] empty
  | some device, some blocks =>
      .reporting ((blockWarnings document blocks).map .warned)
        (blocks.foldl (addBlock device) empty)

/-- The signals of a document as a value. The layout is checked before anything is reported. -/
def ofJson (document : String) (value : Json) : Outcome DocumentError SignalIndex :=
  match SignalDocument.ofJson? value with
  | none => .fail (.unexpectedLayout document)
  | some signals => ofDocument document signals

end SignalIndex

end PinTable
