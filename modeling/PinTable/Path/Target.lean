import PinTable.Path.Basic

set_option autoImplicit false

namespace PinTable

structure TargetPaths where
  source : String
  header : String
  deriving DecidableEq, Repr

namespace TargetPaths

/-- The paths beside a file, with the extensions of C in the place of its own. -/
def beside (path : String) : TargetPaths :=
  { source := String.ofList (Path.withExtension path.toList ['c'])
    header := String.ofList (Path.withExtension path.toList ['h']) }

/-- A character of the guard for one of the header's stem. -/
def guardChar (c : Char) : Char := if c.isAlphanum then c.toUpper else '_'

/-- The macro that keeps the header from being read twice, as `IOC_PINS_IO_INCLUDED`. -/
def guard (paths : TargetPaths) : String :=
  let stem := (Path.fileStem? paths.header.toList).getD []
  "IOC_" ++ String.ofList (stem.map guardChar) ++ "_INCLUDED"

end TargetPaths

end PinTable
