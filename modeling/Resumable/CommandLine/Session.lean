import Resumable.CommandLine.Report
import Resumable.CommandLine.Request
import Resumable.Eval.Instance
import Resumable.Graph.Outline
import Resumable.Json.Machine
import Resumable.Lowered
import Resumable.Toml.Settings

/-! Carrying out a command line. -/

namespace Resumable.CommandLine

/-- What a command line needs from outside: whether a path is a file, the texts of files, which are
none where they can't be read, the working directory, the time that a computation takes, as text,
and the text of JSON values. -/
structure Host (m : Type → Type) where
  isFile : String → m Bool
  read : String → m (Option String)
  directory : String
  timed : {α : Type} → (Unit → α) → m (α × String)
  texts : Json.Texts

/-- Problems met on the way, to be reported at the end. -/
structure Findings where
  failures : List Failure := []
  warnings : List Warning := []

def commandHelp : List String :=
  ["\nCommands:",
    "  cfg <path>              - Prints the control flow graph of each body",
    "  emit <path>             - Prints each emitted state machine as JSON",
    "  run <path> [ints...]    - Runs each machine and prints what it yields",
    "  help",
    "\nFlags:",
    "  --config <file.toml>    (default: ./" ++ Settings.fileName ++ " when present)",
    "  --hide-timers",
    "  --hide-warnings"]

def help : List String :=
  ["------------------------------------",
    "coro, lowers coroutine bodies into resumable state machines",
    "Usage: <command> <file.json> <args>"] ++ commandHelp

/-- The last part of a path, unless it leads upwards. -/
def fileName? (path : String) : Option String :=
  match ((path.splitOn "/").filter fun part => part ≠ "" && part ≠ ".").getLast? with
  | some ".." => none
  | name => name

/-- What follows the last dot of a file name. A dot in front of a name is part of it. -/
def extension? (path : String) : Option String := do
  let parts := (← fileName? path).splitOn "."
  if parts.length < 2 || parts = ["", parts.getLastD ""] then none else parts.getLast?

def inputExtension : String := "json"

def readSources (texts : Json.Texts) (path : String) (text? : Option String) :
    Except Failure (List Source) :=
  let failure (fault : FileFault) : Failure :=
    { fault := .file fault, location := { scope := path } }
  if extension? path ≠ some inputExtension then .error (failure .extension)
  else match text? with
    | none => .error (failure .unreadableInput)
    | some text => (Source.parseAll texts text).mapError (·.withScope path)

def stepLine (before : Target) (step : Instance.Step) : Option String :=
  match step.result with
  | .ok (some value) => some ("  " ++ before.text ++ " -> " ++ value.text)
  | _ => none

/-- What is shown of a run from a state on, and the failure that ended it. -/
def stepLines (before : Target) : List Instance.Step → List String × Option Failure
  | [] => (["  complete"], none)
  | step :: rest =>
    match step.result with
    | .error failure => ([], some failure)
    | .ok _ =>
      let (lines, failure) := stepLines step.after.state rest
      ((stepLine before step).toList ++ lines, failure)

def runLines (machine : Machine) (args : List Int64) (settings : Settings) :
    List String × Option Failure :=
  match Instance.start machine (args.map .int) settings with
  | .error failure => ([], some failure)
  | .ok inst => stepLines inst.state inst.steps

def display (texts : Json.Texts) (request : Request) (settings : Settings) (lowered : Lowered) :
    List String × Option Failure :=
  let (lines, failure) := match request.action with
    | .graph => ([lowered.body.graph.outline lowered.body.symbols.variables], none)
    | .machine => ([lowered.machine.jsonText texts], none)
    | .run => runLines lowered.machine request.arguments settings
  (("\n" ++ lowered.name) :: lines, failure)

variable {m : Type → Type} [Monad m]

def loadSettings (host : Host m) (request : Request) : m (Except Failure Settings) := do
  match request.settingsPath with
  | some path => return Settings.load path (← host.read path)
  | none =>
    if ← host.isFile Settings.fileName then
      return Settings.load Settings.fileName (← host.read Settings.fileName)
    else return .ok {}

def lowerFile (host : Host m) (flags : List Flag) (request : Request) :
    m (List String × Findings) := do
  match ← loadSettings host request with
  | .error failure => return ([], { failures := [failure] })
  | .ok settings =>
    match readSources host.texts request.path (← host.read request.path) with
    | .error failure => return ([], { failures := [failure] })
    | .ok sources =>
      let (batch, time) ← host.timed fun _ => Batch.ofSources settings sources
      let timer := if .hideTimers ∈ flags then []
        else ["\nLowered " ++ toString batch.lowered.length ++ " of " ++ toString sources.length ++
          " bodies in: " ++ time]
      let shown := batch.lowered.map (display host.texts request settings)
      return (timer ++ shown.flatMap Prod.fst,
        { failures := batch.failures ++ shown.filterMap Prod.snd
          warnings := if .hideWarnings ∈ flags then [] else batch.warnings })

def reportFailures (host : Host m) : List Failure → m Printed
  | [] => return {}
  | failure :: rest => do
    let source ← host.read failure.location.scope
    let others ← reportFailures host rest
    return (printProblem host.directory source failure.diagnostic).andThen others

def report (host : Host m) (findings : Findings) : m Printed := do
  return (← reportFailures host findings.failures).andThen
    (findings.warnings.foldr (fun w others => (printWarning w).andThen others) {})

def run (host : Host m) (arguments : List String) : m Printed := do
  if arguments.isEmpty then return { lines := help }
  match Command.ofArguments arguments with
  | .error fault => return { lines := fault.message :: commandHelp }
  | .ok .help => return { lines := help }
  | .ok (.lower request) =>
    let (lines, findings) ← lowerFile host (Flag.among arguments) request
    return Printed.andThen { lines } (← report host findings)

end Resumable.CommandLine
