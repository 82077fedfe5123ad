import Resumable.Diagnostic.Basic
import Resumable.Ids
import Resumable.Program.Text
import Resumable.Slot.Basic

/-! Causes of failure, with the one wording of each. -/

namespace Resumable

/-- A description file that can't be read as coroutine bodies. -/
inductive DescriptionFault where
  | malformed
  | misshapen

/-- Bodies that the language rules out. -/
inductive LoweringFault where
  | notFunction (found : Expr)
  | arity (found expected : Nat)
  | redeclared (name : String) (parameter : Bool)
  | initializerType (name : String) (declared found : DataType)
  | yieldType (declared found : DataType)
  | conditionType (found : DataType)
  | suspensionInside (construct : Construct)
  | unsplittable (construct : Construct)
  | suspensionInExpression (e : Expr)
  | functionInBody (e : Expr)
  | undefined (name : String)
  | undefinedTarget (name : String)
  | immutableTarget (name : String) (parameter : Bool)

/-- Graphs and tables that no body lowers to. -/
inductive GraphFault where
  | noScope (scope : ScopeId)
  | noVariable (var : VarId)
  | noNode (node : NodeId)
  | noHead
  | manyContinuations (node : NodeId) (fragment : String)
  | branchSuccessors (node : NodeId) (count : Nat) (fragment : String)
  | mergeSuccessors (node : NodeId) (count : Nat) (fragment : String)
  | statementSuccessors (node : NodeId) (fragment : String)
  | notAnExit (node : NodeId) (region : RegionId) (fragment : String)

/-- Failures of running code. -/
inductive RunFault where
  | notFunction (found : Expr)
  | argumentCount (expected found : Nat)
  | argumentType (name : String) (expected : DataType) (found : Value)
  | unbound (name : String)
  | unboundTarget (name : String)
  | condition (found : Value)
  | overflow
  | overflowIn (op : BinaryOp)
  | overflowInAbs
  | divisionByZero
  | unaryOperand (op : UnaryOp) (operand : Value)
  | incomparable (left right : Value)
  | binaryOperands (op : BinaryOp) (left right : Value)
  | noBuiltin (name : String) (args : List Value)
  | suspensionInState
  | suspensionInExpression
  | functionValue
  | endlessLoop (limit : Nat)
  | unpackable (value : Value) (encoding : Encoding)
  | notACharacter (word : Int64)
  | referenceWord
  | outsideFrame (stack : String) (index : Nat)
  | completed (machine : String)
  | resumeLimit (machine : String) (limit : Nat)
  | noState (machine : String) (state : RegionId)
  | noNextState (machine : String) (state : RegionId)

inductive SettingsFault where
  | malformed
  | noResumes
  | emptyStackName
  | sameStackName (name : String)

inductive FileFault where
  | unreadableInput
  | unreadableSettings
  | extension

inductive Fault where
  | description (fault : DescriptionFault)
  | lowering (fault : LoweringFault)
  | graph (fault : GraphFault)
  | run (fault : RunFault)
  | settings (fault : SettingsFault)
  | file (fault : FileFault)

/-- A cause and the place it is blamed on. -/
structure Failure where
  fault : Fault
  location : Location := {}

def storageName (parameter : Bool) : String := if parameter then "parameter" else "variable"

namespace DescriptionFault

def message : DescriptionFault → String
  | malformed => "Couldn't read the coroutine descriptions: the text is not valid JSON"
  | misshapen => "Couldn't read the coroutine descriptions: " ++
      "data did not match any variant of untagged enum SourceFile"

def details : DescriptionFault → List (DetailKey × String)
  | _ => [(.compilationStage, "Input"), (.primarySuggestion,
      "Expected \x7b\x22name\x22, \x22arity\x22, \x22function\x22\x7d or a list of them")]

end DescriptionFault

namespace LoweringFault

def kind : LoweringFault → ErrorKind
  | notFunction .. | arity .. => .malformedInput
  | suspensionInside .. | unsplittable .. | suspensionInExpression .. | functionInBody .. =>
    .unsupportedConstruct
  | redeclared .. | undefined .. | undefinedTarget .. | immutableTarget .. => .rule
  | initializerType .. | yieldType .. | conditionType .. => .type

def message : LoweringFault → String
  | notFunction found => "Expected a function literal, found '" ++ found.text ++ "'"
  | arity found expected => "This coroutine takes " ++ toString found ++ " parameter" ++
      (if found = 1 then "" else "s") ++ ", but the entry point expects " ++ toString expected
  | redeclared name parameter =>
    "'" ++ name ++ "' is already declared as a " ++ storageName parameter ++ " in this scope"
  | initializerType name declared found => "'" ++ name ++ "' is declared as " ++ declared.text ++
      ", but is initialised with a " ++ found.text
  | yieldType declared found => "This coroutine yields " ++ declared.text ++
      ", but this suspension yields a " ++ found.text
  | conditionType found => "An if condition must be a Bool, found a " ++ found.text
  | suspensionInside construct => "A suspension point can't appear inside a " ++ construct.text
  | unsplittable construct => "A " ++ construct.text ++ " can't be lowered into a state machine"
  | suspensionInExpression _ => "yieldval can only be used as a statement, not inside an expression"
  | functionInBody _ => "Function literals can't be nested inside a coroutine body"
  | undefined name => "Undefined variable '" ++ name ++ "'"
  | undefinedTarget name => "Can't assign to undefined variable '" ++ name ++ "'"
  | immutableTarget name parameter => "Can't assign to " ++
      (if parameter then "parameter" else "immutable variable") ++ " '" ++ name ++ "'"

def stage : DetailKey × String := (.compilationStage, "CFG Construction")

def details : LoweringFault → List (DetailKey × String)
  | notFunction _ =>
    [stage, (.primarySuggestion, "Pass the coroutine as a single '(params) => body' literal")]
  | arity found expected =>
    [stage, (.expectedType, toString expected), (.foundType, toString found)]
  | redeclared name _ => [(.variableName, name), stage, (.primarySuggestion,
      "Use a different name, or assign to the existing variable if it is mutable")]
  | initializerType name declared found =>
    [(.variableName, name), (.expectedType, declared.text), (.foundType, found.text)]
  | yieldType declared found => [(.expectedType, declared.text), (.foundType, found.text)]
  | conditionType found => [(.expectedType, DataType.bool.text), (.foundType, found.text)]
  | suspensionInside _ =>
    [stage, (.primarySuggestion, "Move the yieldval out of the loop, match or try block")]
  | unsplittable _ => [stage, (.primarySuggestion,
      "Set strict_control_flow = false to keep it as a single statement")]
  | suspensionInExpression e => [stage, (.nodeFragment, e.text),
      (.primarySuggestion, "Yield on its own line, e.g. 'yieldval(x + 1)'")]
  | functionInBody e => [stage, (.nodeFragment, e.text)]
  | undefined name =>
    [(.variableName, name), stage, (.primarySuggestion, "Declare the variable before using it")]
  | undefinedTarget name =>
    [(.variableName, name), stage, (.primarySuggestion, "Declare it with 'var' first")]
  | immutableTarget name _ =>
    [(.variableName, name), stage, (.primarySuggestion, "Declare it with 'var' to make it mutable")]

end LoweringFault

namespace GraphFault

def kind : GraphFault → ErrorKind
  | mergeSuccessors .. => .mergeTopology
  | _ => .internal

def message : GraphFault → String
  | noScope scope => "Scope " ++ scopeText scope ++ " does not exist"
  | noVariable var => "Variable " ++ varText var ++ " has no entry in the variable table"
  | noNode node => "CFG node " ++ nodeText node ++ " does not exist"
  | noHead => "Can't analyze a CFG without a head node"
  | manyContinuations node _ =>
    "Suspension " ++ nodeText node ++ " has more than one resume continuation"
  | branchSuccessors node count _ => "If node " ++ nodeText node ++
      " must have exactly two successors, found " ++ toString count
  | mergeSuccessors node count _ => "Merge node " ++ nodeText node ++ " has " ++ toString count ++
      " successors, a merge can only continue to one node"
  | statementSuccessors node _ =>
    "Statement node " ++ nodeText node ++ " has more than one successor"
  | notAnExit node region _ =>
    "Suspension " ++ nodeText node ++ " is not an exit point of " ++ regionText region

def emission : DetailKey × String := (.compilationStage, "State Machine Emission")

def details : GraphFault → List (DetailKey × String)
  | noScope _ => []
  | noVariable _ => [(.compilationStage, "Variable Table")]
  | noNode node => [(.nodeId, nodeText node)]
  | noHead => [(.compilationStage, "Subgraph Analysis")]
  | manyContinuations _ fragment =>
    [(.compilationStage, "Subgraph Analysis"), (.nodeFragment, fragment)]
  | branchSuccessors _ _ fragment => [emission, (.nodeFragment, fragment)]
  | mergeSuccessors node _ fragment =>
    [emission, (.nodeId, nodeText node), (.nodeFragment, fragment)]
  | statementSuccessors _ fragment => [emission, (.nodeFragment, fragment)]
  | notAnExit _ _ fragment => [emission, (.nodeFragment, fragment)]

end GraphFault

namespace RunFault

def message : RunFault → String
  | notFunction found => "Expected a function literal, found '" ++ found.text ++ "'"
  | argumentCount expected found =>
    "Expected " ++ toString expected ++ " arguments, got " ++ toString found
  | argumentType name expected found =>
    "Argument '" ++ name ++ "' must be a " ++ expected.text ++ ", got a " ++ found.typeName
  | unbound name => "'" ++ name ++ "' has no value here"
  | unboundTarget name => "Can't assign to '" ++ name ++ "', it has no value here"
  | condition found => "Condition must be a Bool, found " ++ found.typeName
  | overflow => "Integer overflow"
  | overflowIn op => "Integer overflow in " ++ op.text
  | overflowInAbs => "Integer overflow in abs"
  | divisionByZero => "Division by zero"
  | unaryOperand op operand => "Can't apply " ++
      (match op with | .neg => "Neg" | .not => "Not") ++ " to a " ++ operand.typeName
  | incomparable left right =>
    "Can't compare a " ++ left.typeName ++ " with a " ++ right.typeName
  | binaryOperands op left right =>
    "Can't apply " ++ op.text ++ " to a " ++ left.typeName ++ " and a " ++ right.typeName
  | noBuiltin name args =>
    "No builtin '" ++ name ++ "' takes (" ++ ", ".intercalate (args.map Value.typeName) ++ ")"
  | suspensionInState =>
    "A state body can't suspend with yieldval, it has to return through its state"
  | suspensionInExpression => "yieldval can only be evaluated as a statement"
  | functionValue => "Function literals can't be evaluated inside a coroutine body"
  | endlessLoop limit => "Loop ran for more than " ++ toString limit ++ " iterations"
  | unpackable value encoding =>
    "Can't pack a " ++ value.typeName ++ " into a " ++ encoding.text ++ " slot"
  | notACharacter word => "Slot word " ++ toString word.toInt ++ " is not a valid char"
  | referenceWord => "Reference slots live on the reference stack, not the value stack"
  | outsideFrame stack index => stack ++ "[" ++ toString index ++ "] is outside the frame"
  | completed machine => "Machine '" ++ machine ++ "' has already completed"
  | resumeLimit machine limit =>
    "Machine '" ++ machine ++ "' was resumed more than " ++ toString limit ++ " times"
  | noState machine state => "Machine '" ++ machine ++ "' has no " ++ regionText state
  | noNextState machine state =>
    regionText state ++ " of '" ++ machine ++ "' returned without choosing the next state"

def details : RunFault → List (DetailKey × String)
  | argumentType name expected found =>
    [(.variableName, name), (.expectedType, expected.text), (.foundType, found.typeName)]
  | unbound name => [(.variableName, name)]
  | unboundTarget name => [(.variableName, name)]
  | condition found => [(.expectedType, DataType.bool.text), (.foundType, found.typeName)]
  | binaryOperands _ left right => [(.foundType, left.typeName ++ ", " ++ right.typeName)]
  | noBuiltin .. =>
    [(.primarySuggestion, "Builtins are abs, max, min, str_len and to_string")]
  | unpackable value _ => [(.foundType, value.typeName)]
  | resumeLimit .. => [(.primarySuggestion, "Raise max_resumes in the settings file")]
  | _ => []

end RunFault

namespace SettingsFault

def message : SettingsFault → String
  | malformed => "Couldn't parse the settings: the text does not describe settings"
  | noResumes => "max_resumes must be at least 1"
  | emptyStackName => "Stack names can't be empty"
  | sameStackName name =>
    "The value stack and the reference stack are both called '" ++ name ++ "'"

def details : SettingsFault → List (DetailKey × String)
  | malformed => [(.compilationStage, "Settings"), (.primarySuggestion,
      "Check the key names and value types against the defaults")]
  | noResumes => [(.variableName, "max_resumes")]
  | emptyStackName => [(.primarySuggestion, "Remove the key to use the default name")]
  | sameStackName _ => [(.primarySuggestion, "Give the two stacks different names")]

end SettingsFault

namespace FileFault

def message : FileFault → String
  | unreadableInput => "Couldn't read the input file: it can't be opened as text"
  | unreadableSettings => "Couldn't read the settings file: it can't be opened as text"
  | extension => "Input files must be .json coroutine descriptions"

end FileFault

namespace Fault

def kind : Fault → ErrorKind
  | description _ => .malformedInput
  | lowering fault => fault.kind
  | graph fault => fault.kind
  | run _ => .runtime
  | settings _ => .config
  | file _ => .file

def message : Fault → String
  | description fault => fault.message
  | lowering fault => fault.message
  | graph fault => fault.message
  | run fault => fault.message
  | settings fault => fault.message
  | file fault => fault.message

def details : Fault → List (DetailKey × String)
  | description fault => fault.details
  | lowering fault => fault.details
  | graph fault => fault.details
  | run fault => fault.details
  | settings fault => fault.details
  | file _ => []

end Fault

namespace Failure

def withScope (failure : Failure) (path : String) : Failure :=
  { failure with location := { failure.location with scope := path } }

def diagnostic (failure : Failure) : Diagnostic :=
  ⟨failure.fault.kind, failure.fault.message, failure.location, failure.fault.details⟩

end Failure

end Resumable
