import Resumable.Eval.Environment
import Resumable.Eval.Operation
import Resumable.Program.Tree

/-! Evaluating expressions and executing statements. -/

namespace Resumable

def RunFault.at {α : Type} (location : Location) : Except RunFault α → Except Failure α
  | .ok value => .ok value
  | .error fault => .error ⟨.run fault, location⟩

/-- Conditions are Bools; anything else is blamed on the expression. -/
def Expr.truth (e : Expr) : Value → Except Failure Bool
  | .bool value => .ok value
  | other => .error ⟨.run (.condition other), e.location⟩

mutual

/-- The value of an expression. Evaluation reads the environment and never changes it. -/
def Expr.eval (env : Env) : Expr → Except Failure Value
  | .literal value _ => .ok value
  | .reference name mark =>
    match env.get? name with
    | some value => .ok value
    | none => .error ⟨.run (.unbound name), mark.location⟩
  | .binary .and left right _ => do
    if ← left.truth (← left.eval env) then
      return .bool (← right.truth (← right.eval env))
    else return .bool false
  | .binary .or left right _ => do
    if ← left.truth (← left.eval env) then return .bool true
    else return .bool (← right.truth (← right.eval env))
  | .binary op left right mark => do
    let a ← left.eval env
    let b ← right.eval env
    RunFault.at mark.location (op.apply a b)
  | .unary op operand mark => do
    let value ← operand.eval env
    RunFault.at mark.location (op.apply value)
  | .call name args mark => do
    let values ← Expr.evalAll env args
    RunFault.at mark.location (callBuiltin name values)
  | .suspend _ mark => .error ⟨.run .suspensionInExpression, mark.location⟩
  | .function _ _ _ mark => .error ⟨.run .functionValue, mark.location⟩

def Expr.evalAll (env : Env) : List Expr → Except Failure (List Value)
  | [] => .ok []
  | e :: rest => do
    let value ← e.eval env
    let values ← Expr.evalAll env rest
    return value :: values

end

def Expr.evalCondition (e : Expr) (env : Env) : Except Failure Bool := do
  e.truth (← e.eval env)

/-- What running code works on. A run that collects what it yields holds it newest first; the body
of a state holds none. -/
structure Session where
  env : Env := .initial
  yields : Option (List Value) := none

/-- Running code changes the session, also where it ends in a failure. -/
abbrev Exec := ExceptT Failure (StateM Session)

namespace Exec

def require {α : Type} (result : Session → Except Failure α) : Exec α :=
  ExceptT.mk fun session => (result session, session)

def value (e : Expr) : Exec Value := require fun session => e.eval session.env

def condition (e : Expr) : Exec Bool := require fun session => e.evalCondition session.env

def raise {α : Type} (fault : RunFault) (location : Location) : Exec α :=
  throw ⟨.run fault, location⟩

def define (name : String) (value : Value) : Exec Unit :=
  modify fun session => { session with env := session.env.define name value }

def assign (name : String) (value : Value) (location : Location) : Exec Unit := do
  match (← get).env.assign? name value with
  | some env => modify fun session => { session with env }
  | none => raise (.unboundTarget name) location

def hand (value : Value) (location : Location) : Exec Unit := do
  match (← get).yields with
  | some yields => modify fun session => { session with yields := some (value :: yields) }
  | none => raise .suspensionInState location

def push : Exec Unit := modify fun session => { session with env := session.env.push }

/-- Runs code in a scope of its own, which is left also after a failure. -/
def inScope (code : Exec Unit) : Exec Unit := ExceptT.mk fun session =>
  let (result, after) := code { session with env := session.env.push }
  (result, { after with env := after.env.pop })

/-- Runs the handler, among the scopes there were before, when the body fails. -/
def recover (body handler : Exec Unit) : Exec Unit := ExceptT.mk fun session =>
  match inScope body session with
  | (.error _, after) =>
    inScope handler { after with env := after.env.keepOuter session.env.length }
  | done => done

def loopLimit : Nat := 1000000

def loop (condition : Exec Bool) (body : Exec Unit) (location : Location) : Nat → Exec Unit
  | 0 => do if ← condition then raise (.endlessLoop loopLimit) location
  | rounds + 1 => do
    if ← condition then
      inScope body
      loop condition body location rounds

end Exec

mutual

def Stmt.exec : Stmt → Exec Unit
  | .declare name _ _ value _ => do Exec.define name (← Exec.value value)
  | .assign target value location => do Exec.assign target (← Exec.value value) location
  | .evaluate value location =>
    match value.payload? with
    | some payload => do Exec.hand (← Exec.value payload) location
    | none => discard (Exec.value value)
  | .branch condition thenBranch none _ => do
    if ← Exec.condition condition then Exec.inScope thenBranch.exec
  | .branch condition thenBranch (some elseBranch) _ => do
    if ← Exec.condition condition then Exec.inScope thenBranch.exec
    else Exec.inScope elseBranch.exec
  | .block body _ => Exec.inScope (Stmt.execAll body)
  | .loop condition body location =>
    Exec.loop (Exec.condition condition) body.exec location Exec.loopLimit
  | .select scrutinee arms _ => do Arm.execFirst (← Exec.value scrutinee) arms
  | .attempt body handler _ => Exec.recover body.exec handler.exec

def Stmt.execAll : List Stmt → Exec Unit
  | [] => return ()
  | s :: rest => do
    s.exec
    Stmt.execAll rest

/-- Runs the first arm whose pattern has the value, or that has no pattern. -/
def Arm.execFirst (scrutinee : Value) : List Arm → Exec Unit
  | [] => return ()
  | .mk none body :: _ => Exec.inScope body.exec
  | .mk (some pattern) body :: rest => do
    if (← Exec.value pattern).equal scrutinee then Exec.inScope body.exec
    else Arm.execFirst scrutinee rest

end

def checkArgs (params : List (String × DataType)) (args : List Value) : Except Failure Unit :=
  if params.length ≠ args.length then
    .error { fault := .run (.argumentCount params.length args.length) }
  else
    match (params.zip args).find? fun ((_, type), arg) => !arg.hasType type with
    | some ((name, type), arg) => .error { fault := .run (.argumentType name type arg) }
    | none => .ok ()

def defineAll (env : Env) (names : List String) (values : List Value) : Env :=
  (names.zip values).foldl (fun env (name, value) => env.define name value) env

def Function.runDirect (function : Function) (args : List Value) : Except Failure (List Value) := do
  checkArgs (function.params.map fun param => (param.name, param.type)) args
  let env := defineAll .initial (function.params.map Parameter.name) args
  let (result, session) := function.body.exec.run { env, yields := some [] }
  result
  return (session.yields.getD []).reverse

def Expr.runDirect (e : Expr) (args : List Value) : Except Failure (List Value) :=
  match e.function? with
  | some found => found.runDirect args
  | none => .error ⟨.run (.notFunction e), e.location⟩

end Resumable
