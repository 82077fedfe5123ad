import Resumable.Machine.Basic

/-! Text of state machines. -/

namespace Resumable

def margin (depth : Nat) : String := String.join (List.replicate depth "    ")

mutual

def Emitted.text (slots : SlotTable) (depth : Nat) : Emitted → String
  | .run statement => margin depth ++ statement.text ++ ";\n"
  | .branch condition thenBlock elseBlock =>
    margin depth ++ "if " ++ condition.text ++ " \x7b\n" ++
      Emitted.blockText slots (depth + 1) thenBlock ++
      margin depth ++ "\x7d else \x7b\n" ++
      Emitted.blockText slots (depth + 1) elseBlock ++
      margin depth ++ "\x7d\n"
  | .store _ name slot encoding =>
    margin depth ++ slots.stackName slot.stack ++ "[" ++ toString slot.index ++ "] = " ++
      encoding.text ++ "(" ++ name ++ ");\n"
  | .load _ name _ slot encoding =>
    margin depth ++ "val " ++ name ++ " = " ++ encoding.text ++ "(" ++
      slots.stackName slot.stack ++ "[" ++ toString slot.index ++ "]);\n"
  | .result value => margin depth ++ Machine.resultName ++ " = " ++ value.text ++ ";\n"
  | .goTo target => margin depth ++ "state = " ++ target.text ++ ";\n"
  | .leave => margin depth ++ "return;\n"

def Emitted.blockText (slots : SlotTable) (depth : Nat) : List Emitted → String
  | [] => ""
  | code :: rest => code.text slots depth ++ Emitted.blockText slots depth rest

end

namespace Machine

def heading (machine : Machine) : String :=
  "machine " ++ machine.name ++ "(" ++
    ", ".intercalate (machine.params.map fun param => param.name ++ ": " ++ param.type.text) ++
    ") yields " ++ machine.yieldType.text ++ "  [" ++
    machine.slots.valueStack ++ ": " ++ toString machine.slots.frame.values ++ ", " ++
    machine.slots.referenceStack ++ ": " ++ toString machine.slots.frame.references ++ "]\n"

def stateText (machine : Machine) (state : StateBody) : String :=
  regionText state.id ++ ":\n" ++ Emitted.blockText machine.slots 1 state.statements

def text (machine : Machine) : String :=
  machine.heading ++ String.join (machine.states.map machine.stateText)

end Machine
end Resumable
