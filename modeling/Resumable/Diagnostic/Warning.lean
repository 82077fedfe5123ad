import Resumable.Program.Location
import Resumable.Program.Tree

/-! Notes on bodies that are lowered all the same. -/

namespace Resumable

inductive WarningCause where
  | keptWhole (construct : Construct)
  | unusedVariable (name : String)
  | unusedParameter (name : String)
  deriving DecidableEq

structure Warning where
  cause : WarningCause
  location : Location
  deriving DecidableEq

namespace WarningCause

def subject : WarningCause → String
  | keptWhole construct => construct.text
  | unusedVariable name => name
  | unusedParameter name => name

def text : WarningCause → String
  | keptWhole construct => "Control flow kept as a single statement: " ++ construct.text
  | unusedVariable name => "Unused variable '" ++ name ++ "'"
  | unusedParameter name => "Unused parameter '" ++ name ++ "'"

end WarningCause
end Resumable
