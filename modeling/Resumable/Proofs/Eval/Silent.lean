import Resumable.Proofs.Eval.Steps
import Resumable.Proofs.Program.Renamed

/-! Statements without suspensions hand nothing out. -/

namespace Resumable

namespace Exec

def Silent (code : Exec Unit) : Prop := ∀ session, (code session).2.yields = session.yields

variable {code handler : Exec Unit}

theorem Silent.inScope (silent : Silent code) : Silent (inScope code) :=
  fun session => silent { session with env := session.env.push }

theorem Silent.recover (body : Silent code) (behind : Silent handler) :
    Silent (recover code handler) := by
  intro session
  have first := body.inScope session
  rw [recover_apply]
  rcases outcome : Exec.inScope code session with ⟨_ | _, after⟩ <;> rw [outcome] at first
  · exact (behind.inScope _).trans first
  · exact first

theorem Silent.loop (condition : Expr) (body : Silent code) (location : Location) (rounds : Nat) :
    Silent (loop (Exec.condition condition) code location rounds) := by
  intro session
  induction rounds generalizing session with
  | zero =>
      rw [loop_zero_apply, condition_apply]
      rcases condition.evalCondition session.env with _ | _ | _ <;> rfl
  | succ rounds ih =>
      rw [loop_succ_apply, condition_apply]
      rcases condition.evalCondition session.env with _ | _ | _
      · rfl
      · rfl
      · have first := body.inScope session
        dsimp only
        rcases outcome : Exec.inScope code session with ⟨_ | _, after⟩ <;> rw [outcome] at first
        · exact first
        · exact (ih after).trans first

end Exec

mutual

theorem Stmt.exec_silent (s : Stmt) {s' : Stmt} {outer : List Naming} {inner : Naming}
    (renamed : s.Renamed false outer inner s') : Exec.Silent s'.exec := by
  intro session
  match s with
  | .declare .. =>
      obtain ⟨localName, value', _, _, _, rfl⟩ := renamed
      rw [Stmt.exec_declare]
      cases value'.eval session.env <;> rfl
  | .assign .. =>
      obtain ⟨localName, value', _, _, rfl⟩ := renamed
      rw [Stmt.exec_assign]
      cases value'.eval session.env with
      | error => rfl
      | ok v =>
          dsimp only
          rw [Exec.assign_apply]
          cases session.env.assign? localName v <;> rfl
  | .evaluate .. =>
      obtain ⟨value', inValue, rfl⟩ | ⟨impossible, _⟩ := renamed
      · rw [Stmt.exec_evaluate, inValue.payload?.2]
        dsimp only
        cases value'.eval session.env <;> rfl
      · cases impossible
  | .branch _ thenBranch none _ =>
      obtain ⟨condition', then', _, inThen, rfl⟩ := renamed
      rw [Stmt.exec_branch_none]
      rcases condition'.evalCondition session.env with _ | _ | _
      · rfl
      · rfl
      · exact (thenBranch.exec_silent inThen).inScope session
  | .branch _ thenBranch (some elseBranch) _ =>
      obtain ⟨condition', then', else', _, inThen, inElse, rfl⟩ := renamed
      rw [Stmt.exec_branch_some]
      rcases condition'.evalCondition session.env with _ | _ | _
      · rfl
      · exact (elseBranch.exec_silent inElse).inScope session
      · exact (thenBranch.exec_silent inThen).inScope session
  | .block body _ =>
      obtain ⟨body', inBody, rfl⟩ := renamed
      rw [Stmt.exec_block]
      exact (Stmt.execAll_silent body inBody).inScope session
  | .loop _ body _ =>
      obtain ⟨condition', body', _, inBody, rfl⟩ := renamed
      rw [Stmt.exec_loop]
      exact (body.exec_silent inBody).loop _ _ _ session
  | .select _ arms _ =>
      obtain ⟨scrutinee', arms', _, inArms, rfl⟩ := renamed
      rw [Stmt.exec_select]
      cases scrutinee'.eval session.env with
      | error => rfl
      | ok v => exact Arm.execFirst_silent v arms inArms session
  | .attempt body handler _ =>
      obtain ⟨body', handler', inBody, inHandler, rfl⟩ := renamed
      rw [Stmt.exec_attempt]
      exact (body.exec_silent inBody).recover (handler.exec_silent inHandler) session

theorem Stmt.execAll_silent (body : List Stmt) {body' : List Stmt} {outer : List Naming}
    {inner : Naming} (renamed : Stmt.RenamedAll false outer inner body body') :
    Exec.Silent (Stmt.execAll body') := by
  intro session
  match body with
  | [] =>
      obtain rfl : body' = [] := renamed
      rfl
  | s :: rest =>
      obtain ⟨s', rest', first, others, rfl⟩ := renamed
      have before := s.exec_silent first session
      rw [Stmt.execAll_cons]
      rcases outcome : s'.exec session with ⟨_ | _, after⟩ <;> rw [outcome] at before
      · exact before
      · exact (Stmt.execAll_silent rest others after).trans before

theorem Arm.execFirst_silent (scrutinee : Value) (arms : List Arm) {arms' : List Arm}
    {namings : List Naming} (renamed : Arm.RenamedAll namings arms arms') :
    Exec.Silent (Arm.execFirst scrutinee arms') := by
  intro session
  match arms with
  | [] =>
      obtain rfl : arms' = [] := renamed
      rfl
  | .mk none body :: rest =>
      obtain ⟨body', rest', inBody, _, rfl⟩ := renamed
      rw [Arm.execFirst_none]
      exact (body.exec_silent inBody).inScope session
  | .mk (some _) body :: rest =>
      obtain ⟨pattern', body', rest', _, inBody, inRest, rfl⟩ := renamed
      rw [Arm.execFirst_some]
      cases pattern'.eval session.env with
      | error => rfl
      | ok v =>
          dsimp only
          split
          · exact (body.exec_silent inBody).inScope session
          · exact Arm.execFirst_silent scrutinee rest inRest session

end

end Resumable
