import Resumable.Machine.Basic
import Resumable.Program.Erasure
import Resumable.Region.Persistence

/-! Turning regions back into structured code. A branch names its merge, so both sides are written
up to the merge, and what follows the merge is written once behind them. -/

namespace Resumable

/-- How a walk over part of a region ended: at the end of the graph, with a suspension on every way,
at the merge it was to stop at, or at a node that stands in the code already. -/
inductive Flow where
  | fallsThrough
  | suspended
  | reachedMerge
  | alreadyEmitted
  deriving DecidableEq

/-- Emission records the nodes it writes, also up to a failure. -/
abbrev Emit := ExceptT Failure (StateM (List NodeId))

def Variable.store (var : Variable) : Emitted := .store var.id var.localName var.slot var.encoding

def Variable.load (var : Variable) : Emitted :=
  .load var.id var.localName var.type var.slot var.encoding

namespace Emit

def raise {α : Type} (fault : GraphFault) (location : Location) : Emit α :=
  throw ⟨.graph fault, location⟩

def require {α : Type} (result : Except Failure α) : Emit α := ExceptT.mk (pure result)

def record (id : NodeId) : Emit Unit := modify (· ++ [id])

def suspension (body : Body) (analysis : Analysis) (region : Region) (node : Node)
    (payload : Expr) : Emit (List Emitted) := do
  let stored ← require (analysis.persisted body region node)
  match region.exits.lookup node.id with
  | none => raise (.notAnExit node.id region.id node.fragment) {}
  | some target =>
    return stored.map Variable.store ++ [.result payload.untyped, .goTo target, .leave]

def onlySuccessor? (node : Node) (fault : GraphFault) (location : Location) :
    Emit (Option NodeId) :=
  match node.successors with
  | [] => return none
  | [next] => return some next
  | _ => raise fault location

def mergedFlow (thenFlow elseFlow : Flow) : Flow :=
  if thenFlow = .suspended && elseFlow = .suspended then .suspended else .fallsThrough

def statementCode (statement : Stmt) : List Emitted :=
  if statement.isUnit then [] else [.run statement.untyped]

/-- Writes code from a node on. Every call that goes on has recorded one more node of the graph, so
the number of nodes and one more bounds the depth. -/
def fromNode (body : Body) (analysis : Analysis) (region : Region) :
    Nat → NodeId → Option NodeId → Emit (List Emitted × Flow)
  | 0, _, _ => return ([], .alreadyEmitted)
  | depth + 1, current, stop => do
    if stop = some current then return ([], .reachedMerge)
    if (← get).contains current then return ([], .alreadyEmitted)
    let node ← require (body.graph.node current)
    record current
    match node.kind with
    | .branch condition merge =>
      match node.successors with
      | [thenHead, elseHead] =>
        let (thenBlock, thenFlow) ← fromNode body analysis region depth thenHead (some merge)
        let (elseBlock, elseFlow) ← fromNode body analysis region depth elseHead (some merge)
        let code := Emitted.branch condition.untyped thenBlock elseBlock
        if thenFlow = .reachedMerge || elseFlow = .reachedMerge then
          let (rest, flow) ← fromNode body analysis region depth merge stop
          return (code :: rest, flow)
        else return ([code], mergedFlow thenFlow elseFlow)
      | successors => raise (.branchSuccessors current successors.length node.fragment) {}
    | .merge =>
      let fault := GraphFault.mergeSuccessors current node.successors.length node.fragment
      match ← onlySuccessor? node fault node.location with
      | none => return ([], .fallsThrough)
      | some next => fromNode body analysis region depth next stop
    | .suspend payload => return (← suspension body analysis region node payload, .suspended)
    | .statement statement =>
      match ← onlySuccessor? node (.statementSuccessors current node.fragment) {} with
      | none => return (statementCode statement, .fallsThrough)
      | some next =>
        let (rest, flow) ← fromNode body analysis region depth next stop
        return (statementCode statement ++ rest, flow)

/-- The entry region stores parameters that are needed later; any other region loads what it needs.
-/
def prologue (body : Body) (analysis : Analysis) (region : Region) :
    Except Failure (List Emitted) :=
  if region.id = 0 then
    analysis.entryStores.mapM fun param => (body.symbols.entry param).map Variable.store
  else region.liveIn.elems.mapM fun var => (body.symbols.entry var).map Variable.load

def epilogue : Flow → List Emitted
  | .fallsThrough => [.goTo .complete, .leave]
  | _ => []

def state (body : Body) (analysis : Analysis) (region : Region) : Emit StateBody := do
  let loads ← require (prologue body analysis region)
  let (code, flow) ← fromNode body analysis region (body.graph.size + 1) region.start none
  return ⟨region.id, loads ++ code ++ epilogue flow⟩

end Emit

def Body.emitState (body : Body) (analysis : Analysis) (region : Region) :
    Except Failure StateBody × List NodeId :=
  (Emit.state body analysis region).run.run []

/-- The nodes written so far, once for each time, and the number of regions that are done. -/
structure EmissionLog where
  nodes : List NodeId := []
  regions : Nat := 0

namespace EmissionLog

def count (log : EmissionLog) (node : NodeId) : Nat := log.nodes.count node

def maxCount (log : EmissionLog) : Nat := (log.nodes.map log.count).foldl max 0

end EmissionLog

namespace Body

def emitStates (body : Body) (analysis : Analysis) :
    List Region → EmissionLog → Except Failure (List StateBody) × EmissionLog
  | [], log => (.ok [], log)
  | region :: rest, log =>
    let (result, nodes) := body.emitState analysis region
    let log := { log with nodes := log.nodes ++ nodes }
    match result with
    | .error failure => (.error failure, log)
    | .ok state =>
      let (states, log) := body.emitStates analysis rest { log with regions := log.regions + 1 }
      (states.map (state :: ·), log)

def machineParam (body : Body) (param : VarId) : Except Failure MachineParam :=
  (body.symbols.entry param).map fun var => ⟨var.localName, var.type⟩

def slotTable (body : Body) (settings : Settings) : SlotTable :=
  { valueStack := settings.valueStack
    referenceStack := settings.referenceStack
    frame := body.symbols.variables.frame
    entries := body.symbols.variables.vars.toList.map fun var =>
      ⟨var.id, var.localName, var.type, var.slot, var.encoding⟩ }

def emit (body : Body) (analysis : Analysis) (settings : Settings) (name : String) :
    Except Failure Machine × EmissionLog :=
  let (states, log) := body.emitStates analysis analysis.regions {}
  let machine := do
    let states ← states
    let params ← body.params.mapM body.machineParam
    return {
      name, params
      yieldType := body.yieldType
      states
      slots := body.slotTable settings }
  (machine, log)

end Body
end Resumable
