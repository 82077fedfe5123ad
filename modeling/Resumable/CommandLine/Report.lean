import Resumable.Diagnostic.Basic
import Resumable.Diagnostic.Warning

/-! Lines that tell a user about problems. -/

namespace Resumable.CommandLine

/-- What is printed: lines, and what was written of a further one when the program was stopped, if it
was. -/
structure Printed where
  lines : List String := []
  stopped : Option String := none
  deriving DecidableEq

/-- A program that was stopped prints nothing more. -/
def Printed.andThen (first second : Printed) : Printed :=
  if first.stopped.isSome then first else { second with lines := first.lines ++ second.lines }

def unended (line : List Char) : List Char :=
  if line.getLast? = some '\r' then line.dropLast else line

/-- The lines of a text without their ends. What follows the last line feed is a line if it isn't
empty. -/
def linesOf (text : String) : List String :=
  let pieces := (text.splitOn "\n").map String.toList
  let ended := pieces.dropLast.map unended
  let last := match pieces.getLast? with
    | some (c :: rest) => [c :: rest]
    | _ => []
  (ended ++ last).map String.ofList

def dropSlashes (cs : List Char) : List Char := cs.dropWhile (· = '/')

/-- A path inside the working directory, shown from there; any other as it is. -/
def shownPath (directory path : String) : String :=
  let start := (directory.toList.reverse.dropWhile (· = '/')).reverse ++ ['/']
  if path = directory then ""
  else if start.isPrefixOf path.toList then
    String.ofList (dropSlashes (path.toList.drop start.length))
  else path

/-- Lines before the first one are taken for the first. -/
def lineIndex (location : Location) : Nat := location.start.line.toInt.toNat

def caretOffset? (location : Location) : Option Nat :=
  (word? (location.start.column.toInt - 1)).map fun ahead => ahead.toInt.toNat

/-- The number of marks, which is one at least. Both steps to it are taken in words. -/
def caretCount? (location : Location) : Option Nat := do
  let reach ← word? (location.stop.column.toInt - location.start.column.toInt)
  let marks ← word? (reach.toInt + 1)
  return max 1 marks.toInt.toNat

def shownLine (location : Location) (source : Option String) : String :=
  ((source.bind fun text => (linesOf text)[lineIndex location]?).getD "")

/-- Lines above the message; a file that can't be read has no more than these. -/
def heading (kind : ErrorKind) (location : Location) (path : String) : List String :=
  let lineText := "Line " ++ toString (lineIndex location + 1)
  match kind with
  | .malformedInput => ["Malformed coroutine body", lineText]
  | .unsupportedConstruct => ["Unsupported construct", lineText]
  | .rule => ["Rule", lineText]
  | .type => ["Type Error", lineText]
  | .mergeTopology | .internal =>
    ["COMPILER BUG - ", "lowering developer skill issue (not your fault)"]
  | .config =>
    ["CONFIG FILE ISSUE - ", "Malformed settings file, something doesn't make sense inside it"]
  | .file => ["🏚 Can't find/read file or directory: " ++ path]
  | .runtime => ["Runtime"]

def insertDetail (detail : DetailKey × String) :
    List (DetailKey × String) → List (DetailKey × String)
  | [] => [detail]
  | head :: rest =>
    if detail.1.text ≤ head.1.text then detail :: head :: rest else head :: insertDetail detail rest

def detailLines (details : List (DetailKey × String)) : List String :=
  (details.foldr insertDetail []).map fun (key, text) => "  " ++ key.text ++ ": " ++ text

def repeated (c : Char) (count : Nat) : String := String.ofList (List.replicate count c)

def excerpt (location : Location) (line : String) : Printed :=
  if line.isEmpty then {}
  else
    match caretOffset? location with
    | none => { lines := ["\n" ++ line], stopped := some "" }
    | some offset =>
      match caretCount? location with
      | none => { lines := ["\n" ++ line], stopped := some (repeated ' ' offset) }
      | some count => { lines := ["\n" ++ line, repeated ' ' offset ++ repeated '^' count] }

def printProblem (directory : String) (source : Option String) (d : Diagnostic) : Printed :=
  let path := shownPath directory d.location.scope
  let header := if path.isEmpty then [] else ["\n(╯°□°)╯  🔥🔥 " ++ path ++ " 🔥🔥  Σ(°△°;) "]
  let head := header ++ heading d.kind d.location path ++ [d.message]
  if d.kind = .file then { lines := head }
  else Printed.andThen { lines := head ++ detailLines d.details }
    (excerpt d.location (shownLine d.location source))

def printWarning (w : Warning) : Printed :=
  match w.location.shownLine? with
  | none => { stopped := some "" }
  | some line => { lines := ["WARNING: Line " ++ toString line.toInt, w.cause.text] }

end Resumable.CommandLine
