import PinTable.Json.Reader

set_option autoImplicit false

namespace PinTable

/-- What a path leads to. -/
inductive Reading where
  /-- Nothing that can be opened. -/
  | absent
  /-- A folder, which opens but holds no text. -/
  | folder
  | file (contents : ByteArray)

/-- What keeps a path from being a document of the expected layout. -/
inductive DocumentError where
  | unopened (path : String)
  | malformed (document : String)
  | unexpectedLayout (document : String)
  deriving DecidableEq, Repr

namespace DocumentError

def message : DocumentError → String
  | unopened path => "Opening file " ++ path ++ " failed"
  | malformed document => "Malformed JSON in " ++ document
  | unexpectedLayout document => "Unexpected document layout in " ++ document

end DocumentError

/-- The document that a path leads to. -/
def loadDocument (path : String) (reading : Reading) : Except DocumentError Json :=
  match reading with
  | .absent => .error (.unopened path)
  | .folder => .error (.malformed path)
  | .file contents =>
      match Json.ofBytes? contents with
      | some value => .ok value
      | none => .error (.malformed path)

end PinTable
