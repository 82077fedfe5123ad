import Resumable.Eval.Exec
import Resumable.Machine.Basic
import Resumable.Settings
import Resumable.Slot.Word

/-! Running instances of state machines. Each resume starts with an empty environment, so a local
survives a suspension through its slot alone. -/

namespace Resumable

/-- One resume under way: the frame it works on, and what it has chosen so far. -/
structure Activation where
  session : Session := {}
  words : List Int64
  references : List Value
  result : Option Value := none
  next : Option Target := none

abbrev Activate := ExceptT Failure (StateM Activation)

namespace Activate

def require {α : Type} (result : Activation → Except Failure α) : Activate α :=
  ExceptT.mk fun activation => (result activation, activation)

def raise {α : Type} (fault : RunFault) : Activate α := throw { fault := .run fault }

def onSession {α : Type} (code : Exec α) : Activate α := ExceptT.mk fun activation =>
  let (result, session) := code activation.session
  (result, { activation with session })

def inScope {α : Type} (code : Activate α) : Activate α := ExceptT.mk fun activation =>
  let enter (session : Session) : Session := { session with env := session.env.push }
  let leave (session : Session) : Session := { session with env := session.env.pop }
  let (result, after) := code { activation with session := enter activation.session }
  (result, { after with session := leave after.session })

def lookup (name : String) : Activate Value := do
  match (← get).session.env.get? name with
  | some value => return value
  | none => raise (.unbound name)

def storeValue (slots : SlotTable) (slot : Slot) (encoding : Encoding) (value : Value) :
    Activate Unit := do
  match slot.stack with
  | .value =>
    let word ← require fun _ => RunFault.at {} (value.encode encoding)
    if slot.index < (← get).words.length then
      modify fun activation => { activation with words := activation.words.set slot.index word }
    else raise (.outsideFrame slots.valueStack slot.index)
  | .reference =>
    if slot.index < (← get).references.length then
      modify fun activation =>
        { activation with references := activation.references.set slot.index value }
    else raise (.outsideFrame slots.referenceStack slot.index)

def loadValue (slots : SlotTable) (slot : Slot) (encoding : Encoding) : Activate Value := do
  match slot.stack with
  | .value =>
    match (← get).words[slot.index]? with
    | some word => require fun _ => RunFault.at {} (Value.decode encoding word)
    | none => raise (.outsideFrame slots.valueStack slot.index)
  | .reference =>
    match (← get).references[slot.index]? with
    | some value => return value
    | none => raise (.outsideFrame slots.referenceStack slot.index)

end Activate

/-- Whether code has left the resume or goes on. -/
inductive Control where
  | onward
  | left
  deriving DecidableEq

mutual

def Emitted.exec (slots : SlotTable) : Emitted → Activate Control
  | .run statement => do
    Activate.onSession statement.exec
    return .onward
  | .branch condition thenBlock elseBlock => do
    if ← Activate.onSession (Exec.condition condition) then
      Activate.inScope (Emitted.execAll slots thenBlock)
    else Activate.inScope (Emitted.execAll slots elseBlock)
  | .store _ name slot encoding => do
    Activate.storeValue slots slot encoding (← Activate.lookup name)
    return .onward
  | .load _ name _ slot encoding => do
    let value ← Activate.loadValue slots slot encoding
    Activate.onSession (Exec.define name value)
    return .onward
  | .result e => do
    let value ← Activate.onSession (Exec.value e)
    modify fun activation => { activation with result := some value }
    return .onward
  | .goTo target => do
    modify fun activation => { activation with next := some target }
    return .onward
  | .leave => return .left

def Emitted.execAll (slots : SlotTable) : List Emitted → Activate Control
  | [] => return .onward
  | code :: rest => do
    match ← code.exec slots with
    | .left => return .left
    | .onward => Emitted.execAll slots rest

end

/-- A machine with its arguments, its frame and the state it resumes in. -/
structure Instance where
  machine : Machine
  args : List Value
  state : Target
  words : List Int64
  references : List Value
  resumes : Nat
  maxResumes : Nat

namespace Instance

def start (machine : Machine) (args : List Value) (settings : Settings) :
    Except Failure Instance := do
  checkArgs (machine.params.map fun param => (param.name, param.type)) args
  return {
    machine, args
    state := .region 0
    words := List.replicate machine.slots.frame.values 0
    references := List.replicate machine.slots.frame.references .unit
    resumes := 0
    maxResumes := settings.maxResumes }

def isComplete (inst : Instance) : Bool := inst.state = .complete

/-- Arguments are defined for the entry state only. -/
def entryEnv (inst : Instance) (id : RegionId) : Env :=
  if id = 0 then defineAll .initial (inst.machine.params.map MachineParam.name) inst.args
  else .initial

/-- Runs the code of a state on the frame. What it stored stays, also where it failed; the next
state is taken only where it succeeded. -/
def runState (inst : Instance) (state : StateBody) (id : RegionId) :
    Except Failure (Option Value) × Instance :=
  let activation : Activation :=
    { session := { env := inst.entryEnv id }, words := inst.words, references := inst.references }
  let (result, after) := Emitted.execAll inst.machine.slots state.statements activation
  let inst := { inst with words := after.words, references := after.references }
  match result, after.next with
  | .error failure, _ => (.error failure, inst)
  | .ok _, none => (.error { fault := .run (.noNextState inst.machine.name id) }, inst)
  | .ok _, some next => (.ok after.result, { inst with state := next })

/-- Runs the current state until it suspends or completes. The answer is what it yields, if it does.
-/
def resume (inst : Instance) : Except Failure (Option Value) × Instance :=
  match inst.state with
  | .complete => (.error { fault := .run (.completed inst.machine.name) }, inst)
  | .region id =>
    let inst := { inst with resumes := inst.resumes + 1 }
    if inst.maxResumes < inst.resumes then
      (.error { fault := .run (.resumeLimit inst.machine.name inst.maxResumes) }, inst)
    else
      match inst.machine.state? id with
      | none => (.error { fault := .run (.noState inst.machine.name id) }, inst)
      | some state => inst.runState state id

/-- Resumes until the machine completes or fails, at most as often as allowed and once more. -/
def runFrom : Nat → Instance → List Value → Except Failure (List Value) × Instance
  | 0, inst, yielded => (.ok yielded.reverse, inst)
  | allowed + 1, inst, yielded =>
    if inst.isComplete then (.ok yielded.reverse, inst)
    else
      match inst.resume with
      | (.error failure, inst) => (.error failure, inst)
      | (.ok value, inst) => runFrom allowed inst (value.toList ++ yielded)

/-- How many more resumes there can be, the one that exceeds the limit included, and a last look. -/
def allowance (inst : Instance) : Nat := inst.maxResumes - inst.resumes + 2

def runToCompletion (inst : Instance) : Except Failure (List Value) × Instance :=
  runFrom inst.allowance inst []

/-- What one resume answered, and the state after it. -/
structure Step where
  result : Except Failure (Option Value)
  after : Instance

def resumeTimes : Nat → Instance → List Step
  | 0, _ => []
  | count + 1, inst =>
    let (result, after) := inst.resume
    ⟨result, after⟩ :: resumeTimes count after

def stepsFrom : Nat → Instance → List Step
  | 0, _ => []
  | allowed + 1, inst =>
    if inst.isComplete then []
    else
      let (result, after) := inst.resume
      match result with
      | .error _ => [⟨result, after⟩]
      | .ok _ => ⟨result, after⟩ :: stepsFrom allowed after

def steps (inst : Instance) : List Step := stepsFrom inst.allowance inst

end Instance
end Resumable
