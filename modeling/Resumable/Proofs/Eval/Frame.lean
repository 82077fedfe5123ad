import Resumable.Proofs.Eval.Environment
import Resumable.Proofs.Eval.Steps
import Resumable.Proofs.Program.Names

/-! What running a statement leaves alone: the scopes there were keep their names, and only the
targets of assignments get other values. -/

namespace Resumable

namespace Env

theorem pop_cons {scope : List (String × Value)} {env : Env} (some_ : env ≠ []) :
    pop (scope :: env) = env := by
  cases env with
  | nil => exact absurd rfl some_
  | cons => rfl

theorem Kept.ne_nil {changed : List String} {before after : Env}
    (kept : Kept changed before after) (some_ : before ≠ []) : after ≠ [] := by
  cases kept with
  | nil => exact some_
  | cons => simp

theorem Kept.length_eq {changed : List String} {before after : Env}
    (kept : Kept changed before after) : after.length = before.length :=
  (List.Forall₂.length_eq kept).symm

theorem keepOuter_length {env : Env} {count : Nat} (same : env.length = count) :
    keepOuter count env = env := by
  simp [keepOuter, same]

end Env

namespace Exec

/-- Code that may add the names it makes to the innermost scope and may change any value there. In
the other scopes it changes only the listed names. -/
def Inner (made changed : List String) (code : Exec Unit) : Prop :=
  ∀ session scope outer, session.env = scope :: outer →
    ∃ scope' outer', (code session).2.env = scope' :: outer' ∧
      (∀ name ∈ scope'.map Prod.fst, name ∈ scope.map Prod.fst ∨ name ∈ made) ∧
      Env.Kept changed outer outer'

variable {made changed : List String} {code body handler : Exec Unit} {session : Session}

theorem Inner.mono {made' few many : List String} (wider : made ⊆ made') (subset : few ⊆ many)
    (inner : Inner made few code) : Inner made' many code := by
  intro session scope outer shape
  obtain ⟨scope', outer', result, keys, kept⟩ := inner session scope outer shape
  exact ⟨scope', outer', result, fun name present => (keys name present).imp_right (@wider name),
    kept.mono subset⟩

theorem inScope_kept (inner : Inner made changed code) (some_ : session.env ≠ []) :
    Env.Kept changed session.env (inScope code session).2.env := by
  obtain ⟨scope', outer', result, _, kept⟩ :=
    inner { session with env := session.env.push } [] session.env rfl
  rw [inScope_apply]
  simp only [result, Env.pop_cons (kept.ne_nil some_)]
  exact kept

theorem recover_kept (left : Inner made changed body) (right : Inner made changed handler)
    (some_ : session.env ≠ []) :
    Env.Kept changed session.env (recover body handler session).2.env := by
  have first := inScope_kept left some_
  rw [recover_apply]
  rcases outcome : inScope body session with ⟨_ | _, after⟩
  · rw [outcome] at first
    have whole := Env.keepOuter_length first.length_eq
    simp only [whole]
    exact first.trans (inScope_kept right (first.ne_nil some_))
  · rw [outcome] at first
    exact first

theorem loop_kept (condition : Expr) (location : Location) (inner : Inner made changed body)
    (rounds : Nat) (some_ : session.env ≠ []) :
    Env.Kept changed session.env
      (loop (Exec.condition condition) body location rounds session).2.env := by
  induction rounds generalizing session with
  | zero =>
      rw [loop_zero_apply, condition_apply]
      rcases condition.evalCondition session.env with _ | _ | _ <;> exact .refl _ _
  | succ rounds ih =>
      rw [loop_succ_apply, condition_apply]
      rcases condition.evalCondition session.env with _ | _ | _
      · exact .refl _ _
      · exact .refl _ _
      · have first := inScope_kept inner some_
        rcases outcome : inScope body session with ⟨_ | _, next⟩
        · simp only [outcome] at first ⊢
          exact first
        · simp only [outcome] at first ⊢
          exact first.trans (ih (first.ne_nil some_))

end Exec

theorem Stmt.exec_evaluate_env (value : Expr) (location : Location) (session : Session) :
    ((Stmt.evaluate value location).exec session).2.env = session.env := by
  rw [Stmt.exec_evaluate]
  cases value.payload? with
  | none => cases value.eval session.env <;> rfl
  | some payload =>
      dsimp only
      cases payload.eval session.env with
      | error => rfl
      | ok v =>
          simp only [Exec.hand_apply]
          cases session.yields <;> rfl

mutual

theorem Stmt.exec_kept (s : Stmt) (plain : s.declared? = none) (session : Session)
    (some_ : session.env ≠ []) :
    Env.Kept s.targets session.env (s.exec session).2.env := by
  match s with
  | .declare .. => simp [Stmt.declared?] at plain
  | .assign target value location =>
      rw [Stmt.exec_assign]
      cases value.eval session.env with
      | error => exact .refl _ _
      | ok v =>
          simp only [Exec.assign_apply]
          cases assigned : session.env.assign? target v with
          | none => exact .refl _ _
          | some env => exact .assign? assigned
  | .evaluate value location =>
      rw [Stmt.exec_evaluate_env]
      exact .refl _ _
  | .branch condition thenBranch none _ =>
      rw [Stmt.exec_branch_none]
      rcases condition.evalCondition session.env with _ | _ | _
      · exact .refl _ _
      · exact .refl _ _
      · exact Exec.inScope_kept thenBranch.exec_inner some_
  | .branch condition thenBranch (some elseBranch) _ =>
      rw [Stmt.exec_branch_some]
      rcases condition.evalCondition session.env with _ | _ | _
      · exact .refl _ _
      · exact (Exec.inScope_kept elseBranch.exec_inner some_).mono (List.subset_append_right _ _)
      · exact (Exec.inScope_kept thenBranch.exec_inner some_).mono (List.subset_append_left _ _)
  | .block body _ =>
      rw [Stmt.exec_block]
      exact Exec.inScope_kept (Stmt.execAll_inner body) some_
  | .loop condition body _ =>
      rw [Stmt.exec_loop]
      exact Exec.loop_kept _ _ body.exec_inner _ some_
  | .select scrutinee arms _ =>
      rw [Stmt.exec_select]
      cases scrutinee.eval session.env with
      | error => exact .refl _ _
      | ok v => exact Arm.execFirst_kept v arms session some_
  | .attempt body handler _ =>
      rw [Stmt.exec_attempt]
      have left : Exec.Inner (body.bound ++ handler.bound) (body.targets ++ handler.targets)
          body.exec :=
        body.exec_inner.mono (List.subset_append_left _ _) (List.subset_append_left _ _)
      have right : Exec.Inner (body.bound ++ handler.bound) (body.targets ++ handler.targets)
          handler.exec :=
        handler.exec_inner.mono (List.subset_append_right _ _) (List.subset_append_right _ _)
      exact Exec.recover_kept left right some_

theorem Stmt.exec_inner (s : Stmt) : Exec.Inner s.bound s.targets s.exec := by
  intro session scope outer shape
  cases plain : s.declared? with
  | none =>
      have some_ : session.env ≠ [] := by simp [shape]
      have kept := s.exec_kept plain session some_
      rw [shape] at kept
      cases result : (s.exec session).2.env with
      | nil => rw [result] at kept; cases kept
      | cons scope' outer' =>
          rw [result] at kept
          cases kept with
          | cons head rest =>
              exact ⟨scope', outer', rfl, fun name present => .inl (head.1 ▸ present), rest⟩
  | some declared =>
      cases s with
      | declare name type mutable value location =>
          rw [Stmt.exec_declare]
          cases value.eval session.env with
          | error => exact ⟨scope, outer, shape, fun _ present => .inl present, .refl _ _⟩
          | ok v =>
              refine ⟨Env.bind name v scope, outer, by simp [shape, Env.define], ?_, .refl _ _⟩
              intro other present
              rcases Env.mem_keys_bind.mp present with same | old
              · have found : declared = other := by simpa [Stmt.declared?, same] using plain.symm
                exact .inr (Stmt.mem_bound_of_declared? (by rw [plain, found]))
              · exact .inl old
      | _ => simp [Stmt.declared?] at plain

theorem Stmt.execAll_inner (body : List Stmt) :
    Exec.Inner (Stmt.boundAll body) (Stmt.targetsAll body) (Stmt.execAll body) := by
  intro session scope outer shape
  match body with
  | [] => exact ⟨scope, outer, shape, fun _ present => .inl present, .refl _ _⟩
  | s :: rest =>
      obtain ⟨scope', outer', result, keys, kept⟩ :=
        s.exec_inner.mono (List.subset_append_left _ (Stmt.boundAll rest)) (List.Subset.refl _)
          session scope outer shape
      have first := kept.mono (List.subset_append_left s.targets (Stmt.targetsAll rest))
      rw [Stmt.execAll_cons]
      rcases outcome : s.exec session with ⟨_ | _, after⟩
      · rw [outcome] at result
        exact ⟨scope', outer', result, keys, first⟩
      · rw [outcome] at result
        obtain ⟨scope'', outer'', last, more, then_⟩ :=
          (Stmt.execAll_inner rest).mono (List.subset_append_right s.bound _)
            (List.subset_append_right s.targets _) after scope' outer' result
        exact ⟨scope'', outer'', last, fun name present => (more name present).elim
          (keys name) .inr, first.trans then_⟩

theorem Arm.execFirst_kept (scrutinee : Value) (arms : List Arm) (session : Session)
    (some_ : session.env ≠ []) :
    Env.Kept (Arm.targetsAll arms) session.env (Arm.execFirst scrutinee arms session).2.env := by
  match arms with
  | [] => exact .refl _ _
  | .mk none body :: rest =>
      rw [Arm.execFirst_none]
      exact (Exec.inScope_kept body.exec_inner some_).mono (List.subset_append_left _ _)
  | .mk (some pattern) body :: rest =>
      rw [Arm.execFirst_some]
      cases pattern.eval session.env with
      | error => exact .refl _ _
      | ok v =>
          dsimp only
          split
          · exact (Exec.inScope_kept body.exec_inner some_).mono (List.subset_append_left _ _)
          · exact (Arm.execFirst_kept scrutinee rest session some_).mono
              (List.subset_append_right _ _)

end

theorem Stmt.exec_get? {s : Stmt} {name : String} (session : Session) (some_ : session.env ≠ [])
    (outside : name ∉ s.targets) (other : s.declared? ≠ some name) :
    (s.exec session).2.env.get? name = session.env.get? name := by
  cases plain : s.declared? with
  | none => exact (s.exec_kept plain session some_).get?_eq outside
  | some declared =>
      have apart : name ≠ declared := fun same => other (same ▸ plain)
      cases s with
      | declare found type mutable value location =>
          cases plain
          rw [Stmt.exec_declare]
          cases value.eval session.env with
          | error => rfl
          | ok v => exact (Env.get?_define some_).trans (if_neg apart)
      | _ => cases plain

end Resumable
