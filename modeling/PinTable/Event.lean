set_option autoImplicit false

namespace PinTable

/-- A condition that a compilation survives. -/
inductive Warning where
  /-- A group of pins is of no known kind, and is left out with its pins. -/
  | unknownGroup (device kind : String)
  /-- An attribute is no parameter. -/
  | unknownAttribute (pin key : String)
  /-- The value of a parameter stands for no integer. -/
  | badValue (pin key : String)
  /-- A signal document lacks a key, and no signal is resolved. -/
  | signalsMissingKey (document key : String)
  /-- A memory block of a signal document has no name, and is left out. -/
  | unnamedBlock (document : String)
  deriving DecidableEq, Repr

namespace Warning

def message : Warning → String
  | unknownGroup device kind => "Pin group '" ++ kind ++ "' in " ++ device ++ " ignored"
  | unknownAttribute pin key =>
      "Pin '" ++ pin ++ "' has unknown attribute '" ++ key ++ "', ignored"
  | badValue pin key =>
      "Pin '" ++ pin ++ "' attribute '" ++ key ++ "' is not an integer, ignored"
  | signalsMissingKey document key =>
      "'" ++ key ++ "' not found in " ++ document ++ ", signals disabled"
  | unnamedBlock document => "Memory block without 'name' in " ++ document ++ " skipped"

end Warning

/-- The levels of log records, the most urgent first. -/
inductive Level where
  | warn
  | info
  | debug
  | trace
  deriving DecidableEq, Repr

namespace Level

def name : Level → String
  | warn => "WARN"
  | info => "INFO"
  | debug => "DEBUG"
  | trace => "TRACE"

/-- How far down the list a level stands. -/
def rank : Level → Nat
  | warn => 0
  | info => 1
  | debug => 2
  | trace => 3

end Level

structure Record where
  level : Level
  message : String
  deriving DecidableEq, Repr

namespace Record

def text (record : Record) : String := record.level.name ++ " " ++ record.message

end Record

/-- One thing that happens during a compilation. -/
inductive Event where
  | warned (warning : Warning)
  | noted (record : Record)
  deriving DecidableEq, Repr

namespace Event

/-- The log line of an event: a warning is logged by its wording. -/
def record : Event → Record
  | warned warning => ⟨.warn, warning.message⟩
  | noted record => record

/-- The warnings among events, in order. -/
def warnings (events : List Event) : List Warning :=
  events.filterMap fun
    | warned warning => some warning
    | noted _ => none

theorem warnings_append (first second : List Event) :
    warnings (first ++ second) = warnings first ++ warnings second :=
  List.filterMap_append

theorem warnings_map_warned (list : List Warning) : warnings (list.map warned) = list := by
  induction list with
  | nil => rfl
  | cons first rest ih =>
      simp only [warnings] at ih
      simp [warnings, ih]

/-- A note at the level that only traces show. -/
def trace (message : String) : Event := .noted ⟨.trace, message⟩

/-- A note for those who debug a compilation. -/
def debug (message : String) : Event := .noted ⟨.debug, message⟩

def info (message : String) : Event := .noted ⟨.info, message⟩

end Event

end PinTable
