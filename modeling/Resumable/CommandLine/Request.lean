/-! What a command line asks for. -/

namespace Resumable.CommandLine

/-- What is shown of the bodies in a file: their graphs, their machines, or what a run yields. -/
inductive Action where
  | graph
  | machine
  | run
  deriving DecidableEq

/-- Why a command line is refused. -/
inductive UsageFault where
  | noCommand
  | unknownCommand (word : String)
  | noSettingsPath
  | unknownFlag (flag : String)
  | notAnInteger (word : String)
  | surplusArgument
  | noPath
  deriving DecidableEq

/-- What may be left out of what is shown. -/
inductive Flag where
  | hideTimers
  | hideWarnings
  deriving DecidableEq

structure Request where
  action : Action
  path : String := ""
  settingsPath : Option String := none
  arguments : List Int64 := []
  deriving DecidableEq

inductive Command where
  | help
  | lower (request : Request)
  deriving DecidableEq

namespace UsageFault

def message : UsageFault → String
  | noCommand => "Missing command"
  | unknownCommand word => "Invalid command: '" ++ word ++ "'"
  | noSettingsPath => "Missing value for --config"
  | unknownFlag flag => "Unknown flag: '" ++ flag ++
      "'. Supported flags are --config, --hide-timers, --hide-warnings."
  | notAnInteger word => "Invalid run argument: '" ++ word ++ "'. Arguments must be integers."
  | surplusArgument => "Only 'run' takes arguments after the input file."
  | noPath => "Missing input file"

end UsageFault

def isFlag (word : String) : Bool := "--".isPrefixOf word

def digits? (cs : List Char) : Option Nat :=
  if !cs.isEmpty && cs.all Char.isDigit then
    some (cs.foldl (fun n c => 10 * n + (c.toNat - '0'.toNat)) 0)
  else none

def integer? (word : String) : Option Int64 :=
  let number? : Option Int := match word.toList with
    | '+' :: cs => (digits? cs).map Int.ofNat
    | '-' :: cs => (digits? cs).map fun n => -Int.ofNat n
    | cs => (digits? cs).map Int.ofNat
  number?.bind fun n =>
    if Int64.minValue.toInt ≤ n && n ≤ Int64.maxValue.toInt then some (Int64.ofInt n) else none

namespace Flag

def ofWord? : String → Option Flag
  | "--hide-timers" => some hideTimers
  | "--hide-warnings" => some hideWarnings
  | _ => none

/-- The flags among words, without regard to what the words around them ask for. -/
def among (words : List String) : List Flag := words.filterMap ofWord?

end Flag

namespace Request

/-- Takes up a word that is no flag: the path comes first, then the arguments of a run. -/
def position (request : Request) (word : String) : Except UsageFault Request :=
  if request.path.isEmpty then .ok { request with path := word }
  else if request.action = .run then
    match integer? word with
    | some value => .ok { request with arguments := request.arguments ++ [value] }
    | none => .error (.notAnInteger word)
  else .error .surplusArgument

def finish (request : Request) : Except UsageFault Request :=
  if request.path.isEmpty then .error .noPath else .ok request

/-- Reads words from left to right. Flags may stand anywhere, and are passed over here. -/
def read (request : Request) : List String → Except UsageFault Request
  | [] => request.finish
  | "--config" :: rest =>
    match rest with
    | [] => .error .noSettingsPath
    | path :: rest =>
      if isFlag path then .error .noSettingsPath
      else read { request with settingsPath := some path } rest
  | "--hide-timers" :: rest => read request rest
  | "--hide-warnings" :: rest => read request rest
  | word :: rest =>
    if isFlag word then .error (.unknownFlag word)
    else match request.position word with
      | .ok request => read request rest
      | .error fault => .error fault

end Request

namespace Action

def ofWord? : String → Option Action
  | "cfg" => some graph
  | "emit" => some machine
  | "run" => some run
  | _ => none

end Action

namespace Command

/-- Nothing is looked at behind a call for help. -/
def ofArguments : List String → Except UsageFault Command
  | [] => .error .noCommand
  | "help" :: _ => .ok .help
  | word :: rest =>
    match Action.ofWord? word with
    | none => .error (.unknownCommand word)
    | some action => (Request.read { action } rest).map lower

end Command
end Resumable.CommandLine
