import Resumable.Proofs.Eval.Balance
import Resumable.Proofs.Eval.OwnFault

/-! Code finds a value for every name that it comes to, wherever its free names have one. -/

namespace Resumable

/-- An environment has a value for each of the names. -/
def Env.Knows (env : Env) (names : List String) : Prop := ∀ name ∈ names, (env.get? name).isSome

namespace Env.Knows

variable {env after : Env} {names few more : List String}

theorem mono (knows : env.Knows names) (subset : few ⊆ names) : env.Knows few :=
  fun name member => knows name (subset member)

theorem left (knows : env.Knows (names ++ more)) : env.Knows names :=
  knows.mono (List.subset_append_left _ _)

theorem right (knows : env.Knows (names ++ more)) : env.Knows more :=
  knows.mono (List.subset_append_right _ _)

theorem congr (knows : env.Knows names) (same : after.names = env.names) : after.Knows names := by
  intro name member
  rw [get?_isSome_iff, same, ← get?_isSome_iff]
  exact knows name member

theorem of_open (knows : env.Knows names) (known : env ≠ [] → after.Knows names) :
    after.Knows names := by
  cases env with
  | nil =>
      intro name member
      cases knows name member
  | cons => exact known (List.cons_ne_nil _ _)

end Env.Knows

mutual

theorem Expr.eval_bound (e : Expr) {env : Env} {failure : Failure}
    (knows : env.Knows e.references) (failed : e.eval env = .error failure) : failure.Bound := by
  match e with
  | .literal .. => cases failed
  | .reference name _ =>
      obtain ⟨value, found⟩ := Option.isSome_iff_exists.mp (knows name List.mem_cons_self)
      simp [Expr.eval, found] at failed
  | .binary _ left right _ =>
      exact Expr.eval_binary_fails Failure.Own.bound (fun _ => left.eval_bound knows.left)
        (fun _ => right.eval_bound knows.right) failed
  | .unary op operand mark =>
      rw [Expr.eval] at failed
      rcases failed_bind failed with inner | ⟨v, _, applied⟩
      · exact operand.eval_bound knows inner
      · exact (RunFault.at_own (fun _ => UnaryOp.apply_isOwn) applied).bound
  | .call _ args mark =>
      rw [Expr.eval] at failed
      rcases failed_bind failed with inner | ⟨vs, _, applied⟩
      · exact Expr.evalAll_bound args knows inner
      · exact (RunFault.at_own (fun _ => callBuiltin_isOwn) applied).bound
  | .suspend .. | .function .. =>
      cases failed
      exact fun name => ⟨nofun, nofun⟩

theorem Expr.evalAll_bound (es : List Expr) {env : Env} {failure : Failure}
    (knows : env.Knows (Expr.allReferences es)) (failed : Expr.evalAll env es = .error failure) :
    failure.Bound := by
  match es with
  | [] => cases failed
  | e :: rest =>
      rw [Expr.evalAll] at failed
      rcases failed_bind failed with first | ⟨v, _, others⟩
      · exact e.eval_bound knows.left first
      · rcases failed_bind others with last | ⟨vs, _, impossible⟩
        · exact Expr.evalAll_bound rest knows.right last
        · cases impossible

end

theorem Expr.evalCondition_bound {e : Expr} {env : Env} {failure : Failure}
    (knows : env.Knows e.references) (failed : e.evalCondition env = .error failure) :
    failure.Bound := by
  rcases failed_bind failed with inner | ⟨v, _, test⟩
  · exact e.eval_bound knows inner
  · exact (Expr.truth_own test).bound

theorem Expr.references_of_payload? {e payload : Expr} (handed : e.payload? = some payload) :
    e.references = payload.references := by
  cases e with
  | suspend inner _ =>
      cases handed
      rfl
  | _ => cases handed

namespace Exec

/-- Code that fails for other reasons than a name without a value, inside some scope where the
listed names have values. -/
def Finds (names : List String) (code : Exec Unit) : Prop :=
  ∀ session, session.env ≠ [] → session.env.Knows names → ∀ failure,
    (code session).1 = .error failure → failure.Bound

variable {names few made changed : List String} {code handler : Exec Unit} {session : Session}
  {failure : Failure}

theorem Finds.mono (finds : Finds few code) (subset : few ⊆ names) : Finds names code :=
  fun session open_ knows => finds session open_ (knows.mono subset)

theorem Finds.inScope (finds : Finds names code) (knows : session.env.Knows names)
    (failed : (inScope code session).1 = .error failure) : failure.Bound :=
  finds { session with env := session.env.push } (List.cons_ne_nil _ _) knows failure failed

theorem Finds.of_bound (bound : ∀ {session : Session} {failure : Failure},
    session.env.Knows names → (code session).1 = .error failure → failure.Bound) :
    Finds names code :=
  fun _ _ knows _ failed => bound knows failed

theorem knows_inScope (inner : Inner made changed code) (knows : session.env.Knows names) :
    (inScope code session).2.env.Knows names :=
  knows.of_open fun open_ => knows.congr (inScope_kept inner open_).names_eq

theorem Finds.loop {condition : Expr} (test : condition.references ⊆ names)
    (finds : Finds names code) (inner : Inner made changed code) (location : Location)
    (rounds : Nat) (knows : session.env.Knows names)
    (failed : (loop (Exec.condition condition) code location rounds session).1 = .error failure) :
    failure.Bound := by
  induction rounds generalizing session with
  | zero =>
      rw [loop_zero_apply, condition_apply] at failed
      rcases tested : condition.evalCondition session.env with found | _ | _ <;>
        rw [tested] at failed <;> cases failed
      · exact Expr.evalCondition_bound (knows.mono test) tested
      · exact fun name => ⟨nofun, nofun⟩
  | succ rounds ih =>
      rw [loop_succ_apply, condition_apply] at failed
      rcases tested : condition.evalCondition session.env with found | _ | _ <;>
        rw [tested] at failed
      · cases failed
        exact Expr.evalCondition_bound (knows.mono test) tested
      · cases failed
      · have next := knows_inScope inner knows
        rcases outcome : Exec.inScope code session with ⟨_ | _, after⟩
        · simp only [outcome] at failed
          exact finds.inScope knows (outcome ▸ failed)
        · simp only [outcome] at failed next
          exact ih next failed

theorem Finds.recover (finds : Finds names handler) (inner : Inner made changed code)
    (knows : session.env.Knows names)
    (failed : (recover code handler session).1 = .error failure) : failure.Bound := by
  rw [recover_apply] at failed
  rcases outcome : Exec.inScope code session with ⟨_ | _, after⟩
  · simp only [outcome] at failed
    refine finds.inScope (knows.of_open fun open_ => ?_) failed
    have kept := inScope_kept inner open_
    rw [outcome] at kept
    simp only [Env.keepOuter_length kept.length_eq]
    exact knows.congr kept.names_eq
  · simp only [outcome] at failed
    cases failed

end Exec

mutual

/-- A statement whose free names have values comes to no name without one. Scopes that it enters are
left again, so that what is free behind them is still known. -/
theorem Stmt.exec_bound (s : Stmt) {session : Session} {failure : Failure}
    (knows : session.env.Knows s.free) (failed : (s.exec session).1 = .error failure) :
    failure.Bound := by
  match s with
  | .declare name type mutable value location =>
      rw [Stmt.exec_declare] at failed
      cases evaluated : value.eval session.env with
      | error found =>
          rw [evaluated] at failed
          cases failed
          exact value.eval_bound knows evaluated
      | ok v =>
          rw [evaluated] at failed
          cases failed
  | .assign target value location =>
      rw [Stmt.exec_assign] at failed
      cases evaluated : value.eval session.env with
      | error found =>
          rw [evaluated] at failed
          cases failed
          exact value.eval_bound (knows.mono (List.subset_cons_self _ _)) evaluated
      | ok v =>
          have known : (session.env.assign? target v).isSome :=
            Env.assign?_isSome_iff.mpr (knows target List.mem_cons_self)
          obtain ⟨env, assigned⟩ := Option.isSome_iff_exists.mp known
          simp only [evaluated, Exec.assign_apply, assigned] at failed
          cases failed
  | .evaluate value location =>
      rw [Stmt.exec_evaluate] at failed
      cases handed : value.payload? with
      | none =>
          cases evaluated : value.eval session.env with
          | error found =>
              simp only [handed, evaluated] at failed
              cases failed
              exact value.eval_bound knows evaluated
          | ok v =>
              simp only [handed, evaluated] at failed
              cases failed
      | some payload =>
          cases evaluated : payload.eval session.env with
          | error found =>
              simp only [handed, evaluated] at failed
              cases failed
              exact payload.eval_bound (Expr.references_of_payload? handed ▸ knows) evaluated
          | ok v =>
              simp only [handed, evaluated, Exec.hand_apply] at failed
              cases hears : session.yields <;> rw [hears] at failed <;> cases failed
              exact fun name => ⟨nofun, nofun⟩
  | .branch condition thenBranch none _ =>
      rw [Stmt.exec_branch_none] at failed
      rcases tested : condition.evalCondition session.env with found | _ | _ <;>
        rw [tested] at failed
      · cases failed
        exact Expr.evalCondition_bound knows.left tested
      · cases failed
      · exact (Exec.Finds.of_bound thenBranch.exec_bound).inScope knows.right failed
  | .branch condition thenBranch (some elseBranch) _ =>
      rw [Stmt.exec_branch_some] at failed
      rcases tested : condition.evalCondition session.env with found | _ | _ <;>
        rw [tested] at failed
      · cases failed
        exact Expr.evalCondition_bound knows.left tested
      · exact (Exec.Finds.of_bound elseBranch.exec_bound).inScope knows.right.right failed
      · exact (Exec.Finds.of_bound thenBranch.exec_bound).inScope knows.right.left failed
  | .block body _ =>
      rw [Stmt.exec_block] at failed
      exact (Stmt.execAll_finds body).inScope knows failed
  | .loop condition body _ =>
      rw [Stmt.exec_loop] at failed
      have finds := Exec.Finds.of_bound body.exec_bound
      exact (finds.mono (List.subset_append_right _ _)).loop (List.subset_append_left _ _)
        body.exec_inner _ _ knows failed
  | .select scrutinee arms _ =>
      rw [Stmt.exec_select] at failed
      cases evaluated : scrutinee.eval session.env with
      | error found =>
          rw [evaluated] at failed
          cases failed
          exact scrutinee.eval_bound knows.left evaluated
      | ok v =>
          rw [evaluated] at failed
          exact Arm.execFirst_bound v arms knows.right failed
  | .attempt body handler _ =>
      rw [Stmt.exec_attempt] at failed
      have finds := Exec.Finds.of_bound handler.exec_bound
      exact (finds.mono (List.subset_append_right _ _)).recover body.exec_inner knows failed

theorem Stmt.execAll_finds (body : List Stmt) :
    Exec.Finds (Stmt.freeAll body) (Stmt.execAll body) := by
  intro session open_ knows failure failed
  match body with
  | [] => cases failed
  | s :: rest =>
      rw [Stmt.execAll_cons] at failed
      have adds := s.exec_adds open_
      rcases outcome : s.exec session with ⟨found | _, after⟩ <;> rw [outcome] at failed adds
      · exact s.exec_bound knows.left (outcome ▸ failed)
      · refine Stmt.execAll_finds rest after ?_ (fun name member => ?_) failure failed
        · exact List.length_pos_iff.mp (adds.count ▸ List.length_pos_iff.mpr open_)
        · rw [adds.visible]
          by_cases declared : s.declared? = some name
          · exact .inr declared
          · exact .inl (knows.right name (List.mem_filter.mpr ⟨member, by simpa using declared⟩))

theorem Arm.execFirst_bound (scrutinee : Value) (arms : List Arm) {session : Session}
    {failure : Failure} (knows : session.env.Knows (Arm.freeAll arms))
    (failed : (Arm.execFirst scrutinee arms session).1 = .error failure) : failure.Bound := by
  match arms with
  | [] => cases failed
  | .mk none body :: rest =>
      rw [Arm.execFirst_none] at failed
      exact (Exec.Finds.of_bound body.exec_bound).inScope knows.left failed
  | .mk (some pattern) body :: rest =>
      rw [Arm.execFirst_some] at failed
      cases evaluated : pattern.eval session.env with
      | error found =>
          rw [evaluated] at failed
          cases failed
          exact pattern.eval_bound knows.left evaluated
      | ok v =>
          simp only [evaluated] at failed
          split at failed
          · exact (Exec.Finds.of_bound body.exec_bound).inScope knows.right.left failed
          · exact Arm.execFirst_bound scrutinee rest knows.right.right failed

end

end Resumable
