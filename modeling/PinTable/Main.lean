import PinTable.CommandLine

set_option autoImplicit false

namespace PinTable.Program

/-- Opens a path to read it, if it can be opened. -/
def openPath (path : String) : IO (Option IO.FS.Handle) := do
  try
    return some (← IO.FS.Handle.mk path .read)
  catch _ => return none

/-- What a path leads to on disk. A folder can be opened, but not read. -/
def readPath (path : String) : IO Reading := do
  match ← openPath path with
  | none => return .absent
  | some handle =>
      try
        return .file (← handle.readBinToEnd)
      catch _ => return .folder

/-- Writes files in order, up to the first that cannot be written, whose path is told. -/
def writeFiles : List (String × String) → IO (Option String)
  | [] => return none
  | (path, text) :: rest => do
      try
        IO.FS.writeFile path text
        writeFiles rest
      catch _ => return some path

def build (plan : BuildPlan) : IO (Outcome BuildError TargetPaths) := do
  let paths := plan.signals.toList ++ plan.manifests
  let readings ← paths.mapM fun path => return (path, ← readPath path)
  let outcome := Build.compile (fun path => (Entries.find? path readings).getD .absent) plan
  match outcome.result with
  | .error error => return ⟨outcome.events, .error error⟩
  | .ok made =>
      match ← writeFiles made.files with
      | none => return ⟨outcome.events, .ok made.paths⟩
      | some path => return ⟨outcome.events, .error (.unwritable path)⟩

def usage : String :=
  "Usage: pinsc [-q | -v...] [-o FILE] [-s FILE] MANIFEST..."

/-- Runs the program and tells its exit status. -/
def run (arguments : List String) : IO UInt32 := do
  match CommandLine.read arguments with
  | .help =>
      IO.println usage
      return 0
  | .version =>
      IO.println CommandLine.versionLine
      return 0
  | .unusable =>
      IO.eprintln usage
      return 2
  | .build plan level =>
      let finish := CommandLine.finishBuild level (← build plan)
      finish.printed.forM IO.println
      if let some error := finish.cause then
        IO.eprintln ("Error: Compilation failed\n\nCaused by:\n    " ++ error.message)
      return finish.status.toUInt32

end PinTable.Program

def main (arguments : List String) : IO UInt32 := PinTable.Program.run arguments
