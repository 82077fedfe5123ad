import Resumable.Json.Texts
import Resumable.Json.Tree
import Resumable.Diagnostic.Fault

/-! Coroutine bodies as they are described in input files. -/

namespace Resumable

open Json

/-- A named function literal, with the parameter count of the entry point it is lowered for. -/
structure Source where
  name : String
  arity : Nat
  function : Expr

namespace Source

def json (source : Source) : Json :=
  .obj [("name", .str source.name), ("arity", .int source.arity),
    ("function", source.function.json)]

def ofJson? (json : Json) : Option Source :=
  match json.record? [("name", .required), ("arity", .required), ("function", .required)] with
  | some [some name, some arity, some function] => do
    return ⟨← name.str?, (← arity.intIn? 0 (UInt64.size - 1)).toNat, ← Expr.fromJson? function⟩
  | _ => none

/-- A list of sources; what is no such list may still be one source. -/
def listOfJson? (json : Json) : Option (List Source) :=
  match json.arr?.bind (·.mapM ofJson?) with
  | some sources => some sources
  | none => (ofJson? json).map ([·])

def failureAt (fault : DescriptionFault) (line : Nat) : Failure :=
  ⟨.description fault, .wholeLine (Int32.ofNat line)⟩

/-- Reads the text of an input file. The shape of a value is looked at before what stands behind it.
-/
def parseAll (texts : Texts) (text : String) : Except Failure (List Source) :=
  match texts.read text with
  | .error line => .error (failureAt .malformed line)
  | .ok (json, trailing) =>
    match listOfJson? json with
    | none => .error (failureAt .misshapen 0)
    | some sources =>
      match trailing with
      | none => .ok sources
      | some line => .error (failureAt .malformed line)

end Source
end Resumable
