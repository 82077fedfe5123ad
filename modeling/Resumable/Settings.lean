import Resumable.Diagnostic.Fault

/-! Options of the lowering and of runs. -/

namespace Resumable

/-- `persistImmutable` stores every live variable at each suspension. `strict` refuses constructs
that are kept whole. `maxResumes` bounds the resumes of one machine. -/
structure Settings where
  persistImmutable : Bool := false
  strict : Bool := false
  maxResumes : Nat := 10000
  valueStack : String := "val_stack"
  referenceStack : String := "ref_stack"
  deriving DecidableEq

namespace Settings

/-- The name of a settings file that is picked up without being asked for. -/
def fileName : String := "coro.toml"

def validate (settings : Settings) : Except Failure Settings :=
  if settings.maxResumes = 0 then .error { fault := .settings .noResumes }
  else if settings.valueStack.isEmpty || settings.referenceStack.isEmpty then
    .error { fault := .settings .emptyStackName }
  else if settings.valueStack = settings.referenceStack then
    .error { fault := .settings (.sameStackName settings.valueStack) }
  else .ok settings

end Settings
end Resumable
