import Resumable.Region.Liveness

/-! What each suspension writes to the slots. -/

namespace Resumable

namespace Variable

/-- Variables are written in the order of their slots, and by number where they share one. -/
def writtenBefore (a b : Variable) : Bool :=
  a.slot.before b.slot || (a.slot = b.slot && a.id ≤ b.id)

def insertInto (var : Variable) : List Variable → List Variable
  | [] => [var]
  | head :: rest =>
    if var.writtenBefore head then var :: head :: rest else head :: insertInto var rest

def sortBySlot (vars : List Variable) : List Variable := vars.foldr insertInto []

end Variable

namespace Analysis

/-- What is needed after a suspension of a region, unless the machine completes there. -/
def liveAfter? (analysis : Analysis) (region : Region) (exit : NodeId) : Option VarSet :=
  match region.exits.lookup exit with
  | some (.region id) => (analysis.region? id).map Region.liveIn
  | _ => none

/-- Of the variables that are needed later, an immutable one that an earlier region declared is in
its slot already, unless everything is to be stored. -/
def mustStore (analysis : Analysis) (region : Region) (exit : NodeId) (var : Variable) : Bool :=
  match analysis.liveAfter? region exit with
  | none => false
  | some live => live.contains var.id &&
      (analysis.persistImmutable || var.mutable || region.declared.contains var.id)

/-- The variables that a suspension stores, shadowed ones included. -/
def persisted (analysis : Analysis) (body : Body) (region : Region) (exit : Node) :
    Except Failure (List Variable) := do
  let vars ← (body.symbols.scopes.visible exit.scope).mapM body.symbols.entry
  return Variable.sortBySlot (vars.filter (analysis.mustStore region exit.id))

end Analysis
end Resumable
