set_option autoImplicit false

namespace PinTable.Path

/-- The segments between the slashes of a path, of which there is always at least one. -/
def segments : List Char → List (List Char)
  | [] => [[]]
  | c :: rest =>
      if c = '/' then [] :: segments rest
      else
        match segments rest with
        | [] => [[c]]
        | first :: others => (c :: first) :: others

def join (parts : List (List Char)) : List Char := List.intercalate ['/'] parts

/-- The segment stays where it is: it is empty, or a single point. -/
def isIdle (segment : List Char) : Bool := segment = [] || segment = ['.']

def parent : List Char := ['.', '.']

/-- A path that names a file: the segments before the name, the name, and idle segments after it. -/
structure FileParts where
  before : List (List Char)
  name : List Char
  after : List (List Char)
  deriving DecidableEq, Repr

/-- The file that a path names: its last segment that is not idle, unless that leads up. -/
def fileParts? (path : List Char) : Option FileParts :=
  let reversed := (segments path).reverse
  match reversed.dropWhile isIdle with
  | [] => none
  | name :: before =>
      if name = parent then none
      else some ⟨before.reverse, name, (reversed.takeWhile isIdle).reverse⟩

/-- Splits a file name at its last point, the point itself left out. A name that has no point, or
only one in front, is all stem. -/
def splitName (name : List Char) : List Char × Option (List Char) :=
  let extension := (name.reverse.takeWhile (· ≠ '.')).reverse
  let stem := name.take (name.length - extension.length - 1)
  if stem = [] then (name, none) else (stem, some extension)

def fileStem? (path : List Char) : Option (List Char) :=
  (fileParts? path).map fun parts => (splitName parts.name).1

/-- The path with another extension. What follows the file name is cut off. A path that names no
file stays as it is; so does one whose name is left with two points when its extension goes, for
then it leads up. -/
def withExtension (path extension : List Char) : List Char :=
  match fileParts? path with
  | none => path
  | some parts =>
      let split := splitName parts.name
      if split.1 = ['.'] ∧ split.2.isSome ∧ parts.after = [] then join (parts.before ++ [parent])
      else join (parts.before ++ [split.1 ++ '.' :: extension])

end PinTable.Path
