import Resumable.Json.Source
import Resumable.Machine.Emission
import Resumable.Region.Persistence

/-! Lowered coroutines: a source taken through graph, regions and code. -/

namespace Resumable

structure Lowered where
  name : String
  body : Body
  analysis : Analysis
  machine : Machine

/-- The first stage that fails ends the lowering. -/
def Source.lower (settings : Settings) (source : Source) : Except Failure Lowered := do
  let body ← Body.build settings source.arity source.function
  let analysis ← body.analyze settings
  let machine ← (body.emit analysis settings source.name).1
  return { name := source.name, body, analysis, machine }

/-- Many sources lowered on their own. A failed one leaves no warnings. -/
structure Batch where
  lowered : List Lowered := []
  failures : List Failure := []
  warnings : List Warning := []

namespace Batch

def add (settings : Settings) (batch : Batch) (source : Source) : Batch :=
  match source.lower settings with
  | .ok lowered =>
    { batch with
      lowered := batch.lowered ++ [lowered]
      warnings := batch.warnings ++ lowered.body.warnings }
  | .error failure => { batch with failures := batch.failures ++ [failure] }

/-- Everything stays in the order of the sources. -/
def ofSources (settings : Settings) (sources : List Source) : Batch :=
  sources.foldl (add settings) {}

end Batch
end Resumable
