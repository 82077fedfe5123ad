import Resumable.Json.Texts
import Resumable.Json.Tree
import Resumable.Machine.Basic

/-! The JSON form of state machines. -/

namespace Resumable

open Json

/-- Ids and sizes are 32-bit numbers. -/
def natJson (n : Nat) : Json := .int n

def nat? (json : Json) : Option Nat := (json.intIn? 0 (UInt32.size - 1)).map Int.toNat

namespace Stack

def ofJson? (json : Json) : Option Stack :=
  bareVariant? ([value, reference].map fun stack => (stack.text, stack)) json

end Stack

namespace Slot

def json (slot : Slot) : Json :=
  .obj [("stack", .str slot.stack.text), ("index", natJson slot.index)]

def ofJson? (json : Json) : Option Slot :=
  match json.record? [("stack", .required), ("index", .required)] with
  | some [some stack, some index] => do return ⟨← Stack.ofJson? stack, ← nat? index⟩
  | _ => none

end Slot

namespace Encoding

def ofJson? (json : Json) : Option Encoding :=
  bareVariant? (all.map fun encoding => (encoding.text, encoding)) json

end Encoding

namespace Target

def json : Target → Json
  | region id => tagged "Subgraph" (natJson id)
  | complete => .str "Complete"

def ofJson? (json : Json) : Option Target :=
  match json.variant? with
  | some ("Subgraph", some id) => (nat? id).map region
  | some ("Complete", payload) => if isBare payload then some complete else none
  | _ => none

end Target

mutual

def Emitted.json : Emitted → Json
  | .run statement => tagged "Statement" statement.json
  | .branch condition thenBlock elseBlock =>
    tagged "If" (.obj [("condition", condition.json),
      ("then_block", .arr (Emitted.jsons thenBlock)),
      ("else_block", .arr (Emitted.jsons elseBlock))])
  | .store var name slot encoding =>
    tagged "StoreSlot" (.obj [("var", natJson var), ("name", .str name), ("slot", slot.json),
      ("encoding", .str encoding.text)])
  | .load var name type slot encoding =>
    tagged "LoadSlot" (.obj [("var", natJson var), ("name", .str name), ("data_type", type.json),
      ("slot", slot.json), ("encoding", .str encoding.text)])
  | .result value => tagged "SetResult" value.json
  | .goTo target => tagged "SetState" target.json
  | .leave => .str "Return"

def Emitted.jsons : List Emitted → List Json
  | [] => []
  | code :: rest => code.json :: Emitted.jsons rest

end

/-- Reads emitted code in which blocks are nested less than `levels` deep. -/
def Emitted.ofJson? : Nat → Json → Option Emitted
  | 0, _ => none
  | levels + 1, json =>
    match json.variant? with
    | some ("Statement", some payload) => (Stmt.fromJson? payload).map .run
    | some ("If", some payload) =>
      match payload.record? [("condition", .required), ("then_block", .required),
        ("else_block", .required)] with
      | some [some condition, some thenBlock, some elseBlock] => do
        return .branch (← Expr.fromJson? condition)
          (← (← thenBlock.arr?).mapM (Emitted.ofJson? levels))
          (← (← elseBlock.arr?).mapM (Emitted.ofJson? levels))
      | _ => none
    | some ("StoreSlot", some payload) =>
      match payload.record? [("var", .required), ("name", .required), ("slot", .required),
        ("encoding", .required)] with
      | some [some var, some name, some slot, some encoding] => do
        return .store (← nat? var) (← name.str?) (← Slot.ofJson? slot) (← Encoding.ofJson? encoding)
      | _ => none
    | some ("LoadSlot", some payload) =>
      match payload.record? [("var", .required), ("name", .required), ("data_type", .required),
        ("slot", .required), ("encoding", .required)] with
      | some [some var, some name, some type, some slot, some encoding] => do
        return .load (← nat? var) (← name.str?) (← DataType.ofJson? type) (← Slot.ofJson? slot)
          (← Encoding.ofJson? encoding)
      | _ => none
    | some ("SetResult", some payload) => (Expr.fromJson? payload).map .result
    | some ("SetState", some payload) => (Target.ofJson? payload).map .goTo
    | some ("Return", payload) => if isBare payload then some .leave else none
    | _ => none

namespace StateBody

def json (state : StateBody) : Json :=
  .obj [("id", natJson state.id), ("statements", .arr (Emitted.jsons state.statements))]

def ofJson? (json : Json) : Option StateBody :=
  match json.record? [("id", .required), ("statements", .required)] with
  | some [some id, some statements] => do
    return ⟨← nat? id, ← (← statements.arr?).mapM (Emitted.ofJson? (json.depth + 1))⟩
  | _ => none

end StateBody

namespace MachineParam

def json (param : MachineParam) : Json :=
  .obj [("name", .str param.name), ("data_type", param.type.json)]

def ofJson? (json : Json) : Option MachineParam :=
  match json.record? [("name", .required), ("data_type", .required)] with
  | some [some name, some type] => do return ⟨← name.str?, ← DataType.ofJson? type⟩
  | _ => none

end MachineParam

namespace SlotEntry

def json (entry : SlotEntry) : Json :=
  .obj [("var", natJson entry.var), ("name", .str entry.name), ("data_type", entry.type.json),
    ("slot", entry.slot.json), ("encoding", .str entry.encoding.text)]

def ofJson? (json : Json) : Option SlotEntry :=
  match json.record? [("var", .required), ("name", .required), ("data_type", .required),
    ("slot", .required), ("encoding", .required)] with
  | some [some var, some name, some type, some slot, some encoding] => do
    return ⟨← nat? var, ← name.str?, ← DataType.ofJson? type, ← Slot.ofJson? slot,
      ← Encoding.ofJson? encoding⟩
  | _ => none

end SlotEntry

namespace SlotTable

def json (slots : SlotTable) : Json :=
  .obj [("val_stack", .str slots.valueStack), ("ref_stack", .str slots.referenceStack),
    ("val_stack_size", natJson slots.frame.values),
    ("ref_stack_size", natJson slots.frame.references),
    ("entries", .arr (slots.entries.map SlotEntry.json))]

def ofJson? (json : Json) : Option SlotTable :=
  match json.record? [("val_stack", .required), ("ref_stack", .required),
    ("val_stack_size", .required), ("ref_stack_size", .required), ("entries", .required)] with
  | some [some valueStack, some referenceStack, some values, some references, some entries] => do
    return {
      valueStack := ← valueStack.str?
      referenceStack := ← referenceStack.str?
      frame := ⟨← nat? values, ← nat? references⟩
      entries := ← (← entries.arr?).mapM SlotEntry.ofJson? }
  | _ => none

end SlotTable

namespace Machine

def json (machine : Machine) : Json :=
  .obj [("name", .str machine.name), ("params", .arr (machine.params.map MachineParam.json)),
    ("yield_type", machine.yieldType.json), ("states", .arr (machine.states.map StateBody.json)),
    ("slots", machine.slots.json)]

def ofJson? (json : Json) : Option Machine :=
  match json.record? [("name", .required), ("params", .required), ("yield_type", .required),
    ("states", .required), ("slots", .required)] with
  | some [some name, some params, some yieldType, some states, some slots] => do
    return {
      name := ← name.str?
      params := ← (← params.arr?).mapM MachineParam.ofJson?
      yieldType := ← DataType.ofJson? yieldType
      states := ← (← states.arr?).mapM StateBody.ofJson?
      slots := ← SlotTable.ofJson? slots }
  | _ => none

def jsonText (texts : Texts) (machine : Machine) : String := texts.pretty machine.json

/-- Reads the text of a machine. -/
def ofText? (texts : Texts) (text : String) : Option Machine :=
  match texts.read text with
  | .ok (json, none) => ofJson? json
  | _ => none

end Machine
end Resumable
