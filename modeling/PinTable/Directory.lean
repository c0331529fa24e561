import PinTable.Path.Basic
import PinTable.Document

set_option autoImplicit false

/- The files that a build reads and writes, as a value: what stands at each place below the folder
that paths start from. A place is the list of names that leads to it. Folders above the start, and
the top of the file system, are folders too. -/
namespace PinTable

inductive Node where
  | folder
  | file (contents : ByteArray)

/-- The names that lead from the starting folder to a place. Names that lead up come first. -/
abbrev Place : Type := List String

/-- Files and folders by place. -/
structure Directory where
  nodes : List (Place × Node)

namespace Directory

/-- The name that leads to the folder above. -/
def up : String := ".."

/-- The name that stands for the top of the file system. -/
def top : String := "/"

/-- The place is the starting folder, one above it, or the top. -/
def isOutermost (place : Place) : Bool := place.all (· == up) || place == [top]

def nodeAt? (directory : Directory) (place : Place) : Option Node :=
  if isOutermost place then some .folder
  else (directory.nodes.find? fun entry => entry.1 == place).map Prod.snd

def above (place : Place) : Place :=
  if place == [top] then place
  else if place.all (· == up) then place ++ [up]
  else place.dropLast

/-- One segment further from a folder. -/
def enter (place : Place) (segment : List Char) : Place :=
  if Path.isIdle segment then place
  else if segment = Path.parent then above place
  else place ++ [String.ofList segment]

/-- Follows segments from a folder. All but the last have to lead to folders, and so has the last if
it is idle: nothing is reached otherwise. -/
def follow? (directory : Directory) : Place → List (List Char) → Option Place
  | place, [] => some place
  | place, segment :: rest =>
      match directory.nodeAt? place with
      | some .folder => follow? directory (enter place segment) rest
      | _ => none

/-- The place that a path leads to. The place need not hold anything, but what leads to it does. An
empty path and a path with a null character lead nowhere. -/
def locate? (directory : Directory) (path : String) : Option Place :=
  if path.toList = [] ∨ '\x00' ∈ path.toList then none
  else
    match Path.segments path.toList with
    | [] :: rest => directory.follow? [top] rest
    | parts => directory.follow? [] parts

/-- What a path leads to. -/
def read (directory : Directory) (path : String) : Reading :=
  match (directory.locate? path).bind directory.nodeAt? with
  | none => .absent
  | some .folder => .folder
  | some (.file contents) => .file contents

def put (directory : Directory) (place : Place) (node : Node) : Directory :=
  ⟨(place, node) :: directory.nodes.filter fun entry => entry.1 != place⟩

/-- Writes a file, whether or not there is one already. A path that leads nowhere or to a folder
cannot be written. -/
def write? (directory : Directory) (path : String) (contents : ByteArray) : Option Directory :=
  match directory.locate? path with
  | none => none
  | some place =>
      match directory.nodeAt? place with
      | some .folder => none
      | _ => some (directory.put place (.file contents))

end Directory

end PinTable
