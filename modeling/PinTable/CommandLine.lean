import PinTable.Build

set_option autoImplicit false

namespace PinTable.CommandLine

/-- What the arguments ask for. -/
inductive Request where
  | help
  | version
  | build (plan : BuildPlan) (level : Level)
  | unusable
  deriving DecidableEq, Repr

/-- The options that take a value. -/
inductive ValueOption where
  | output
  | signals
  deriving DecidableEq, Repr

/-- The flags, which take none. -/
inductive Flag where
  | verbose
  | quiet
  | help
  | version
  deriving DecidableEq, Repr

inductive Switch where
  | flag (flag : Flag)
  | value (option : ValueOption)
  deriving DecidableEq, Repr

/-- The switch of a letter after a dash. -/
def letterSwitch? : Char → Option Switch
  | 'o' => some (.value .output)
  | 's' => some (.value .signals)
  | 'v' => some (.flag .verbose)
  | 'q' => some (.flag .quiet)
  | 'h' => some (.flag .help)
  | 'V' => some (.flag .version)
  | _ => none

/-- The switch of a word after two dashes. -/
def wordSwitch? : String → Option Switch
  | "output" => some (.value .output)
  | "signals" => some (.value .signals)
  | "help" => some (.flag .help)
  | "version" => some (.flag .version)
  | _ => none

/-- What has been read of the arguments. -/
structure Given where
  manifests : List String
  outputs : List String
  signals : List String
  verbosity : Nat
  quiet : Bool
  /-- The option whose value is to come next. -/
  awaited : Option ValueOption
  /-- An option was left without its value. -/
  lacking : Bool
  deriving DecidableEq, Repr

/-- What has been read so far, or the request that is settled before the end. -/
abbrev Progress : Type := Except Request Given

namespace Given

def nothing : Given := ⟨[], [], [], 0, false, none, false⟩

/-- Takes a manifest or the value of the awaited option, neither of which may be empty. -/
def take (given : Given) (value : String) : Progress :=
  if value = "" then .error .unusable
  else
    match given.awaited with
    | none => .ok { given with manifests := given.manifests ++ [value] }
    | some .output => .ok { given with outputs := given.outputs ++ [value], awaited := none }
    | some .signals => .ok { given with signals := given.signals ++ [value], awaited := none }

def abandon (given : Given) : Given :=
  { given with awaited := none, lacking := given.lacking || given.awaited.isSome }

def await (given : Given) (option : ValueOption) : Given := { given with awaited := some option }

/-- Takes a flag. Help and the version are given at once. -/
def raise (given : Given) : Flag → Progress
  | .help => .error .help
  | .version => .error .version
  | .verbose => .ok { given with verbosity := given.verbosity + 1 }
  | .quiet => .ok { given with quiet := true }

/-- Reads the letters after a dash. The value of an option is the rest of them, after an equals sign
if there is one. -/
def letters (given : Given) : List Char → Progress
  | [] => .ok given
  | c :: rest =>
      match letterSwitch? c with
      | none => .error .unusable
      | some (.flag flag) => do
          let given ← given.raise flag
          given.letters rest
      | some (.value option) =>
          match rest with
          | [] => .ok (given.await option)
          | '=' :: value => (given.await option).take (String.ofList value)
          | value => (given.await option).take (String.ofList value)

/-- Reads the word after two dashes, with a value after an equals sign if there is one. -/
def word (given : Given) (text : List Char) : Progress :=
  match wordSwitch? (String.ofList (text.takeWhile (· ≠ '='))), text.dropWhile (· ≠ '=') with
  | none, _ => .error .unusable
  | some (.flag flag), [] => given.raise flag
  | some (.flag _), _ => .error .unusable
  | some (.value option), [] => .ok (given.await option)
  | some (.value option), _ :: value => (given.await option).take (String.ofList value)

/-- Reads one argument: a dash with something after it is a switch. -/
def argument (given : Given) (text : String) : Progress :=
  match text.toList with
  | '-' :: '-' :: name => given.abandon.word name
  | '-' :: c :: rest => given.abandon.letters (c :: rest)
  | _ => given.take text

/-- The level down to which a run logs. -/
def level (given : Given) : Level :=
  if given.quiet then .warn
  else
    match given.verbosity with
    | 0 => .info
    | 1 => .debug
    | _ => .trace

/-- What the arguments ask for, all of them being read: there is at least one manifest, each option
is given at most once and with its value, and a run is not both quiet and verbose. -/
def request (given : Given) : Request :=
  if given.manifests = [] ∨ 1 < given.outputs.length ∨ 1 < given.signals.length ∨
      given.lacking = true ∨ (given.quiet = true ∧ 0 < given.verbosity) then .unusable
  else .build ⟨given.manifests, given.signals.head?, given.outputs.head?⟩ given.level

/-- Reads arguments in order. After two dashes alone none is a switch. -/
def readAll (given : Given) : List String → Progress
  | [] => .ok given.abandon
  | text :: rest =>
      if text = "--" then rest.foldlM take given.abandon
      else do
        let given ← given.argument text
        given.readAll rest

end Given

/-- What a list of arguments asks for. -/
def read (arguments : List String) : Request :=
  match Given.nothing.readAll arguments with
  | .error request => request
  | .ok given => given.request

def versionLine : String := "pinsc 1.0.0"

/-- The log lines that a level shows. -/
def shown (level : Level) (records : List Record) : List String :=
  (records.filter fun record => record.level.rank ≤ level.rank).map Record.text

/-- The last log line of a run that succeeds. -/
def doneRecord (warnings : List Warning) (paths : TargetPaths) : Record :=
  ⟨.info, "Done with " ++ natText warnings.length ++ " warnings: " ++ paths.source ++ ", " ++
    paths.header⟩

/-- What a run leaves: its exit status, what it printed, and the error that ended it. -/
structure Finish where
  status : Nat
  printed : List String
  cause : Option BuildError

/-- The end of a build that was asked for at a log level. -/
def finishBuild (level : Level) (outcome : Outcome BuildError TargetPaths) : Finish :=
  match outcome.result with
  | .ok paths => ⟨0, shown level (outcome.log ++ [doneRecord outcome.warnings paths]), none⟩
  | .error error => ⟨1, shown level outcome.log, some error⟩

/-- Runs the program in a directory. The text of help and of usage errors is not part of it. -/
def run (directory : Directory) (arguments : List String) : Directory × Finish :=
  match read arguments with
  | .help => (directory, ⟨0, [], none⟩)
  | .version => (directory, ⟨0, [versionLine], none⟩)
  | .unusable => (directory, ⟨2, [], none⟩)
  | .build plan level =>
      let built := directory.build plan
      (built.1, finishBuild level built.2)

end PinTable.CommandLine
