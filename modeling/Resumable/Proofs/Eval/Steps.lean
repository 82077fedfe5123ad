import Resumable.Eval.Exec

/-! What each statement does to a session, one equation for each form. -/

namespace Resumable

/-- A piece of program text that was run. -/
inductive Fragment where
  | statement (s : Stmt)
  | condition (e : Expr)

namespace Exec

variable {α β : Type}

theorem bind_apply (x : Exec α) (f : α → Exec β) (session : Session) :
    (x >>= f) session = match x session with
      | (.ok a, after) => f a after
      | (.error failure, after) => (.error failure, after) := by
  have opened : (x >>= f) session = ExceptT.bindCont f (x session).1 (x session).2 := rfl
  rw [opened]
  rcases x session with ⟨_ | _, after⟩ <;> rfl

theorem get_apply (session : Session) : (get : Exec Session) session = (.ok session, session) := rfl

theorem discard_apply (x : Exec α) (session : Session) :
    (discard x : Exec Unit) session = match x session with
      | (.ok _, after) => (.ok (), after)
      | (.error failure, after) => (.error failure, after) := by
  have opened : (discard x : Exec Unit) session = (x >>= fun _ => pure ()) session := by
    simp only [discard, Functor.discard]
    rfl
  rw [opened, bind_apply]
  rcases x session with ⟨_ | _, after⟩ <;> rfl

theorem value_apply (e : Expr) (session : Session) :
    value e session = (e.eval session.env, session) := rfl

theorem condition_apply (e : Expr) (session : Session) :
    condition e session = (e.evalCondition session.env, session) := rfl

theorem define_apply (name : String) (v : Value) (session : Session) :
    define name v session = (.ok (), { session with env := session.env.define name v }) := rfl

theorem assign_apply (name : String) (v : Value) (location : Location) (session : Session) :
    assign name v location session = match session.env.assign? name v with
      | some env => (.ok (), { session with env })
      | none => (.error ⟨.run (.unboundTarget name), location⟩, session) := by
  rw [assign, bind_apply, get_apply]
  dsimp only
  cases session.env.assign? name v <;> rfl

theorem hand_apply (v : Value) (location : Location) (session : Session) :
    hand v location session = match session.yields with
      | some yields => (.ok (), { session with yields := some (v :: yields) })
      | none => (.error ⟨.run .suspensionInState, location⟩, session) := by
  rw [hand, bind_apply, get_apply]
  dsimp only
  cases session.yields <;> rfl

theorem inScope_apply (code : Exec Unit) (session : Session) :
    inScope code session =
      ((code { session with env := session.env.push }).1,
        { (code { session with env := session.env.push }).2 with
          env := (code { session with env := session.env.push }).2.env.pop }) := rfl

theorem recover_apply (body handler : Exec Unit) (session : Session) :
    recover body handler session = match inScope body session with
      | (.error _, after) =>
        inScope handler { after with env := after.env.keepOuter session.env.length }
      | done => done := rfl

theorem loop_zero_apply (test : Exec Bool) (body : Exec Unit) (location : Location)
    (session : Session) :
    loop test body location 0 session = match test session with
      | (.ok true, after) => (.error ⟨.run (.endlessLoop loopLimit), location⟩, after)
      | (.ok false, after) => (.ok (), after)
      | (.error failure, after) => (.error failure, after) := by
  rw [loop, bind_apply]
  rcases test session with ⟨_ | _ | _, after⟩ <;> rfl

theorem loop_succ_apply (test : Exec Bool) (body : Exec Unit) (location : Location)
    (rounds : Nat) (session : Session) :
    loop test body location (rounds + 1) session = match test session with
      | (.ok true, after) => match inScope body after with
        | (.ok _, next) => loop test body location rounds next
        | (.error failure, next) => (.error failure, next)
      | (.ok false, after) => (.ok (), after)
      | (.error failure, after) => (.error failure, after) := by
  rw [loop, bind_apply]
  rcases test session with ⟨_ | _ | _, after⟩
  · rfl
  · rfl
  · dsimp only
    rw [if_pos rfl, bind_apply]
    rcases inScope body after with ⟨_ | _, next⟩ <;> rfl

end Exec

namespace Stmt

theorem exec_declare (name : String) (type : DataType) (mutable : Bool) (value : Expr)
    (location : Location) (session : Session) :
    (declare name type mutable value location).exec session = match value.eval session.env with
      | .ok v => (.ok (), { session with env := session.env.define name v })
      | .error failure => (.error failure, session) := by
  rw [exec, Exec.bind_apply, Exec.value_apply]
  cases value.eval session.env <;> rfl

theorem exec_assign (target : String) (value : Expr) (location : Location) (session : Session) :
    (assign target value location).exec session = match value.eval session.env with
      | .ok v => Exec.assign target v location session
      | .error failure => (.error failure, session) := by
  rw [exec, Exec.bind_apply, Exec.value_apply]
  cases value.eval session.env <;> rfl

theorem exec_evaluate (value : Expr) (location : Location) (session : Session) :
    (evaluate value location).exec session = match value.payload? with
      | some payload => (match payload.eval session.env with
        | .ok v => Exec.hand v location session
        | .error failure => (.error failure, session))
      | none => (match value.eval session.env with
        | .ok _ => (.ok (), session)
        | .error failure => (.error failure, session)) := by
  rw [exec]
  cases value.payload? with
  | none =>
      simp only
      rw [Exec.discard_apply, Exec.value_apply]
      cases value.eval session.env <;> rfl
  | some payload =>
      simp only
      rw [Exec.bind_apply, Exec.value_apply]
      cases payload.eval session.env <;> rfl

theorem exec_branch_none (condition : Expr) (thenBranch : Stmt) (location : Location)
    (session : Session) :
    (branch condition thenBranch none location).exec session =
      match condition.evalCondition session.env with
      | .ok true => Exec.inScope thenBranch.exec session
      | .ok false => (.ok (), session)
      | .error failure => (.error failure, session) := by
  rw [exec, Exec.bind_apply, Exec.condition_apply]
  rcases condition.evalCondition session.env with _ | _ | _ <;> rfl

theorem exec_branch_some (condition : Expr) (thenBranch elseBranch : Stmt) (location : Location)
    (session : Session) :
    (branch condition thenBranch (some elseBranch) location).exec session =
      match condition.evalCondition session.env with
      | .ok true => Exec.inScope thenBranch.exec session
      | .ok false => Exec.inScope elseBranch.exec session
      | .error failure => (.error failure, session) := by
  rw [exec, Exec.bind_apply, Exec.condition_apply]
  rcases condition.evalCondition session.env with _ | _ | _ <;> rfl

theorem exec_block (body : List Stmt) (location : Location) (session : Session) :
    (block body location).exec session = Exec.inScope (execAll body) session := by
  rw [exec]

theorem exec_loop (condition : Expr) (body : Stmt) (location : Location) (session : Session) :
    (loop condition body location).exec session =
      Exec.loop (Exec.condition condition) body.exec location Exec.loopLimit session := by
  rw [exec]

theorem exec_select (scrutinee : Expr) (arms : List Arm) (location : Location)
    (session : Session) :
    (select scrutinee arms location).exec session = match scrutinee.eval session.env with
      | .ok v => Arm.execFirst v arms session
      | .error failure => (.error failure, session) := by
  rw [exec, Exec.bind_apply, Exec.value_apply]
  cases scrutinee.eval session.env <;> rfl

theorem exec_attempt (body handler : Stmt) (location : Location) (session : Session) :
    (attempt body handler location).exec session =
      Exec.recover body.exec handler.exec session := by
  rw [exec]

theorem execAll_cons (s : Stmt) (rest : List Stmt) (session : Session) :
    execAll (s :: rest) session = match s.exec session with
      | (.ok _, after) => execAll rest after
      | (.error failure, after) => (.error failure, after) := by
  rw [execAll, Exec.bind_apply]
  rcases s.exec session with ⟨_ | _, after⟩ <;> rfl

end Stmt

namespace Arm

theorem execFirst_none (scrutinee : Value) (body : Stmt) (rest : List Arm) (session : Session) :
    execFirst scrutinee (.mk none body :: rest) session = Exec.inScope body.exec session := by
  rw [execFirst]

theorem execFirst_some (scrutinee : Value) (pattern : Expr) (body : Stmt) (rest : List Arm)
    (session : Session) :
    execFirst scrutinee (.mk (some pattern) body :: rest) session =
      match pattern.eval session.env with
      | .ok v => if v.equal scrutinee then Exec.inScope body.exec session
        else execFirst scrutinee rest session
      | .error failure => (.error failure, session) := by
  rw [execFirst, Exec.bind_apply, Exec.value_apply]
  cases pattern.eval session.env with
  | error failure => rfl
  | ok v =>
      dsimp only
      split <;> rfl

end Arm
end Resumable
