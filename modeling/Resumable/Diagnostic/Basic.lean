import Resumable.Program.Location

/-! What is reported to a user: kind, wording, place and details of one problem. -/

namespace Resumable

inductive ErrorKind where
  | malformedInput
  | unsupportedConstruct
  | rule
  | type
  | mergeTopology
  | internal
  | config
  | file
  | runtime
  deriving DecidableEq

namespace ErrorKind

def title : ErrorKind → String
  | malformedInput => "Malformed Coroutine Body"
  | unsupportedConstruct => "Unsupported Construct"
  | rule => "Language Rule Violation"
  | type => "Type Error"
  | mergeTopology => "Invalid Merge Topology"
  | internal => "Compiler Bug"
  | config => "Malformed Config"
  | file => "File Error"
  | runtime => "Runtime Error"

end ErrorKind

inductive DetailKey where
  | variableName
  | compilationStage
  | primarySuggestion
  | alternativeSuggestion
  | expectedType
  | foundType
  | nodeId
  | nodeFragment
  deriving DecidableEq

namespace DetailKey

def text : DetailKey → String
  | variableName => "VariableName"
  | compilationStage => "CompilationStage"
  | primarySuggestion => "PrimarySuggestion"
  | alternativeSuggestion => "AlternativeSuggestion"
  | expectedType => "ExpectedType"
  | foundType => "FoundType"
  | nodeId => "NodeId"
  | nodeFragment => "NodeFragment"

end DetailKey

structure Diagnostic where
  kind : ErrorKind
  message : String
  location : Location := {}
  details : List (DetailKey × String) := []
  deriving DecidableEq

namespace Diagnostic

def ofInternal (message : String) : Diagnostic := ⟨.internal, message, {}, []⟩

def ofFile (path message : String) : Diagnostic := ⟨.file, message, { scope := path }, []⟩

def withKind (d : Diagnostic) (kind : ErrorKind) : Diagnostic := { d with kind }

def withScope (d : Diagnostic) (path : String) : Diagnostic :=
  { d with location := { d.location with scope := path } }

/-- Each key has one detail; a later one takes the place of an earlier one. -/
def withDetail (d : Diagnostic) (key : DetailKey) (text : String) : Diagnostic :=
  { d with details := d.details.filter (·.1 ≠ key) ++ [(key, text)] }

/-- There is no text where the number of the line is no word. -/
def text? (d : Diagnostic) : Option String :=
  d.location.shownLine?.map fun line =>
    d.kind.title ++ " (line " ++ toString line.toInt ++ "): " ++ d.message

end Diagnostic
end Resumable
