import Resumable.Eval.Exec
import Resumable.Program.Erasure

/-! Type notes have no part in evaluation: a tree without them runs like the tree. -/

namespace Resumable

theorem Expr.location_untyped (e : Expr) : e.untyped.location = e.location := by
  cases e <;> rfl

theorem Expr.truth_untyped (e : Expr) : e.untyped.truth = e.truth := by
  funext value
  cases value <;> simp [Expr.truth, Expr.location_untyped]

mutual

theorem Expr.eval_untyped (env : Env) (e : Expr) : e.untyped.eval env = e.eval env := by
  match e with
  | .literal .. => rfl
  | .reference .. => rfl
  | .binary op left right _ =>
      cases op <;> simp only [Expr.untyped, Expr.eval, Expr.eval_untyped env left,
        Expr.eval_untyped env right, Expr.truth_untyped, Mark.untyped]
  | .unary op operand _ =>
      simp only [Expr.untyped, Expr.eval, Expr.eval_untyped env operand, Mark.untyped]
  | .call name args _ =>
      simp only [Expr.untyped, Expr.eval, Expr.evalAll_untyped env args, Mark.untyped]
  | .suspend .. => rfl
  | .function .. => rfl

theorem Expr.evalAll_untyped (env : Env) (es : List Expr) :
    Expr.evalAll env (Expr.untypedAll es) = Expr.evalAll env es := by
  match es with
  | [] => rfl
  | e :: rest =>
      simp only [Expr.untypedAll, Expr.evalAll, Expr.eval_untyped env e,
        Expr.evalAll_untyped env rest]

end

theorem Expr.evalCondition_untyped (env : Env) (e : Expr) :
    e.untyped.evalCondition env = e.evalCondition env := by
  simp only [Expr.evalCondition, Expr.eval_untyped, Expr.truth_untyped]

theorem Exec.value_untyped (e : Expr) : Exec.value e.untyped = Exec.value e := by
  simp only [Exec.value, Expr.eval_untyped]

theorem Exec.condition_untyped (e : Expr) : Exec.condition e.untyped = Exec.condition e := by
  simp only [Exec.condition, Expr.evalCondition_untyped]

theorem Expr.payload?_untyped (e : Expr) : e.untyped.payload? = e.payload?.map Expr.untyped := by
  cases e <;> rfl

mutual

theorem Stmt.exec_untyped (s : Stmt) : s.untyped.exec = s.exec := by
  match s with
  | .declare .. => simp only [Stmt.untyped, Stmt.exec, Exec.value_untyped]
  | .assign .. => simp only [Stmt.untyped, Stmt.exec, Exec.value_untyped]
  | .evaluate value _ =>
      simp only [Stmt.untyped, Stmt.exec, Expr.payload?_untyped]
      cases value.payload? with
      | none => simp only [Option.map_none, Exec.value_untyped]
      | some payload => simp only [Option.map_some, Exec.value_untyped]
  | .branch _ thenBranch none _ =>
      simp only [Stmt.untyped, Stmt.exec, Exec.condition_untyped, thenBranch.exec_untyped]
  | .branch _ thenBranch (some elseBranch) _ =>
      simp only [Stmt.untyped, Stmt.exec, Exec.condition_untyped, thenBranch.exec_untyped,
        elseBranch.exec_untyped]
  | .block body _ => simp only [Stmt.untyped, Stmt.exec, Stmt.execAll_untyped body]
  | .loop _ body _ =>
      simp only [Stmt.untyped, Stmt.exec, Exec.condition_untyped, body.exec_untyped]
  | .select _ arms _ =>
      simp only [Stmt.untyped, Stmt.exec, Exec.value_untyped, Arm.execFirst_untyped _ arms]
  | .attempt body handler _ =>
      simp only [Stmt.untyped, Stmt.exec, body.exec_untyped, handler.exec_untyped]

theorem Stmt.execAll_untyped (body : List Stmt) :
    Stmt.execAll (Stmt.untypedAll body) = Stmt.execAll body := by
  match body with
  | [] => rfl
  | s :: rest =>
      simp only [Stmt.untypedAll, Stmt.execAll, s.exec_untyped, Stmt.execAll_untyped rest]

theorem Arm.execFirst_untyped (scrutinee : Value) (arms : List Arm) :
    Arm.execFirst scrutinee (Arm.untypedAll arms) = Arm.execFirst scrutinee arms := by
  match arms with
  | [] => rfl
  | .mk none body :: _ => simp only [Arm.untypedAll, Arm.execFirst, body.exec_untyped]
  | .mk (some _) body :: rest =>
      simp only [Arm.untypedAll, Arm.execFirst, Exec.value_untyped, body.exec_untyped,
        Arm.execFirst_untyped scrutinee rest]

end
end Resumable
