import PinTable.Listing.Draft
import PinTable.Directory
import PinTable.Manifest.Decode
import PinTable.Path.Target

set_option autoImplicit false

namespace PinTable

/-- What a build is asked to do. -/
structure BuildPlan where
  manifests : List String
  signals : Option String
  /-- The path that names the C files; the first manifest does if there is none. -/
  output : Option String
  deriving DecidableEq, Repr

/-- What ends a build. -/
inductive BuildError where
  | noManifests
  | document (error : DocumentError)
  | manifest (fault : DecodeFault)
  | unwritable (path : String)
  deriving DecidableEq, Repr

namespace BuildError

def message : BuildError → String
  | noManifests => "No source files"
  | document error => error.message
  | manifest fault => fault.message
  | unwritable path => "Failed to write " ++ path

end BuildError

/-- Both C files as texts, with the paths that they are for. -/
structure Compilation where
  paths : TargetPaths
  header : String
  source : String
  deriving DecidableEq, Repr

namespace Build

/-- The signals of the signal document, if one is given. -/
def loadSignals (read : String → Reading) (path : Option String) :
    Outcome BuildError SignalIndex :=
  match path with
  | none => .ok SignalIndex.empty
  | some path => do
      let value ← .ofExcept ((loadDocument path (read path)).mapError .document)
      let signals ← (SignalIndex.ofJson path value).mapError .document
      .report (.debug ("Loaded " ++ natText signals.size ++ " signals from " ++ path))
      return signals

def loadManifest (read : String → Reading) (path : String) : Outcome BuildError Manifest := do
  .report (.debug ("Decoding " ++ path))
  let value ← .ofExcept ((loadDocument path (read path)).mapError .document)
  (Manifest.decode (Location.root path) value).mapError .manifest

/-- Loads and decodes manifests in order, up to the first that fails. -/
def loadManifests (read : String → Reading) : List String → Outcome BuildError (List Manifest)
  | [] => .ok []
  | path :: rest => do
      let first ← loadManifest read path
      let others ← loadManifests read rest
      return first :: others

/-- The path that names the C files. -/
def namingPath? (plan : BuildPlan) : Option String := plan.output.or plan.manifests.head?

/-- Makes both C files for their paths, from what the paths of a plan lead to. -/
def compileFor (paths : TargetPaths) (read : String → Reading) (plan : BuildPlan) :
    Outcome BuildError Compilation := do
  let signals ← loadSignals read plan.signals
  let manifests ← loadManifests read plan.manifests
  let files := Listing.ofManifests paths.guard signals manifests
  .reporting
    (files.events ++ [.info ("Writing files " ++ paths.source ++ " and " ++ paths.header)])
    ⟨paths, files.headerText, files.sourceText⟩

/-- Makes both C files, from what the paths of a plan lead to. -/
def compile (read : String → Reading) (plan : BuildPlan) : Outcome BuildError Compilation :=
  match namingPath? plan with
  | none => .fail .noManifests
  | some path => compileFor (TargetPaths.beside path) read plan

end Build

namespace Compilation

/-- The files to write, in order. -/
def files (made : Compilation) : List (String × String) :=
  [(made.paths.source, made.source), (made.paths.header, made.header)]

end Compilation

namespace Directory

/-- Writes files in order, up to the first that cannot be written, whose path is told. -/
def writeAll (directory : Directory) : List (String × String) → Directory × Option String
  | [] => (directory, none)
  | (path, text) :: rest =>
      match directory.write? path text.toUTF8 with
      | none => (directory, some path)
      | some written => written.writeAll rest

/-- Builds in a directory. Nothing is written unless both C files are made. -/
def build (directory : Directory) (plan : BuildPlan) :
    Directory × Outcome BuildError TargetPaths :=
  let outcome := Build.compile directory.read plan
  match outcome.result with
  | .error error => (directory, ⟨outcome.events, .error error⟩)
  | .ok made =>
      match directory.writeAll made.files with
      | (after, none) => (after, ⟨outcome.events, .ok made.paths⟩)
      | (after, some path) => (after, ⟨outcome.events, .error (.unwritable path)⟩)

end Directory

end PinTable
