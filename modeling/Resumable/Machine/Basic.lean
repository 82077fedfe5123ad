import Resumable.Region.Basic

/-! State machines: one body of structured code for each region, and the frame their locals live in.
-/

namespace Resumable

/-- Code of a state. `store` and `load` carry a local to and from its slot; `goTo` chooses the next
state and `leave` ends the resume. -/
inductive Emitted where
  | run (statement : Stmt)
  | branch (condition : Expr) (thenBlock elseBlock : List Emitted)
  | store (var : VarId) (name : String) (slot : Slot) (encoding : Encoding)
  | load (var : VarId) (name : String) (type : DataType) (slot : Slot) (encoding : Encoding)
  | result (value : Expr)
  | goTo (target : Target)
  | leave

structure StateBody where
  id : RegionId
  statements : List Emitted

structure MachineParam where
  name : String
  type : DataType
  deriving DecidableEq

structure SlotEntry where
  var : VarId
  name : String
  type : DataType
  slot : Slot
  encoding : Encoding
  deriving DecidableEq

/-- The names and sizes of both stacks, and the slot of every variable. -/
structure SlotTable where
  valueStack : String
  referenceStack : String
  frame : Extent
  entries : List SlotEntry
  deriving DecidableEq

structure Machine where
  name : String
  params : List MachineParam
  yieldType : DataType
  states : List StateBody
  slots : SlotTable

namespace SlotTable

def stackName (slots : SlotTable) : Stack → String
  | .value => slots.valueStack
  | .reference => slots.referenceStack

def entry? (slots : SlotTable) (var : VarId) : Option SlotEntry :=
  slots.entries.find? fun entry => entry.var == var

end SlotTable

namespace Machine

def state? (machine : Machine) (id : RegionId) : Option StateBody :=
  machine.states.find? fun state => state.id == id

def resultName : String := "result"

end Machine
end Resumable
