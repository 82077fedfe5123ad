import Mathlib
import Resumable.Proofs.Eval.Frame

/-! Scopes are left as they were entered. However a statement ends, there are as many scopes as
before with the same names, and only a declaration that succeeds adds its own to the innermost. -/

namespace Resumable

namespace Env

theorem get?_isSome_iff {name : String} {env : Env} :
    (get? name env).isSome ↔ ∃ scope ∈ env.names, name ∈ scope := by
  induction env with
  | nil => simp [get?, names]
  | cons scope rest ih =>
      simp only [names, List.map_cons, List.mem_cons, exists_eq_or_imp] at ih ⊢
      rw [get?, Option.isSome_or, Bool.or_eq_true, lookup_isSome_iff, ih]

/-- The scopes of two environments correspond, and the innermost one may have a name more. -/
structure Balanced (added : Option String) (before after : Env) : Prop where
  count : after.length = before.length
  outer : after.names.tail = before.names.tail
  inner (name : String) :
    name ∈ after.names.headD [] ↔ name ∈ before.names.headD [] ∨ added = some name
  visible (name : String) :
    (after.get? name).isSome ↔ (before.get? name).isSome ∨ added = some name

namespace Balanced

theorem of_names {before after : Env} (same : after.names = before.names) :
    Balanced none before after := by
  have count : after.names.length = before.names.length := congrArg List.length same
  refine ⟨by simpa [names] using count, by rw [same], fun name => ?_, fun name => ?_⟩
  · simp [same]
  · simp only [get?_isSome_iff, same, reduceCtorEq, or_false]

theorem define (name : String) (value : Value) {env : Env} (open_ : env ≠ []) :
    Balanced (some name) env (define name value env) := by
  cases env with
  | nil => exact absurd rfl open_
  | cons scope rest =>
      refine ⟨rfl, rfl, fun other => ?_, fun other => ?_⟩
      · exact mem_keys_bind.trans (by rw [or_comm, Option.some.injEq, eq_comm (a := name)]; rfl)
      · rw [get?_define (List.cons_ne_nil _ _), Option.some.injEq]
        by_cases same : other = name
        · simp [same]
        · simp [same, Ne.symm same]

end Balanced
end Env

/-- The name that a statement has added to the scope it stands in, by the way it ended. -/
def Stmt.added (s : Stmt) : Except Failure Unit → Option String
  | .ok _ => s.declared?
  | .error _ => none

theorem Stmt.exec_names {s : Stmt} {session : Session} (plain : s.declared? = none)
    (open_ : session.env ≠ []) : (s.exec session).2.env.names = session.env.names :=
  (s.exec_kept plain session open_).names_eq

theorem Stmt.exec_adds (s : Stmt) {session : Session} (open_ : session.env ≠ []) :
    Env.Balanced (s.added (s.exec session).1) session.env (s.exec session).2.env := by
  cases plain : s.declared? with
  | none =>
      have nothing : s.added (s.exec session).1 = none := by
        cases (s.exec session).1 with
        | error => rfl
        | ok => exact plain
      rw [nothing]
      exact .of_names (Stmt.exec_names plain open_)
  | some name =>
      cases s with
      | declare found type mutable value location =>
          rw [Stmt.exec_declare]
          cases value.eval session.env with
          | error => exact .of_names rfl
          | ok v => exact .define found v open_
      | _ => cases plain

/-- Where the body of an attempt fails, all scopes that were entered for it have been left by the
time its handler starts. -/
theorem Exec.recover_names {body handler : Stmt} {session middle : Session} {failure : Failure}
    (open_ : session.env ≠ []) (failed : inScope body.exec session = (.error failure, middle)) :
    middle.env.names = session.env.names ∧
    middle.env.keepOuter session.env.length = middle.env ∧
    recover body.exec handler.exec session = inScope handler.exec middle := by
  have kept := inScope_kept body.exec_inner open_
  rw [failed] at kept
  have whole := Env.keepOuter_length kept.length_eq
  refine ⟨kept.names_eq, whole, ?_⟩
  rw [recover_apply, failed]
  simp only [whole]

/-- A statement leaves each scope with the names it had, whether it succeeds or fails. Only one that
is itself a declaration, and succeeds, adds a name, to the innermost scope. So what was declared
inside a block, a branch, a loop, an arm or an attempt is out of sight behind it, and the handler
of an attempt finds the names there were before the body, without any scope having to be cut off. -/
theorem Stmt.exec_balanced (s : Stmt) (session : Session) (open_ : session.env ≠ []) :
    Env.Balanced (s.added (s.exec session).1) session.env (s.exec session).2.env ∧
    (s.declared? = none → (s.exec session).2.env.names = session.env.names) ∧
    ∀ body handler location failure middle, s = .attempt body handler location →
      Exec.inScope body.exec session = (.error failure, middle) →
      middle.env.names = session.env.names ∧
      middle.env.keepOuter session.env.length = middle.env ∧
      s.exec session = Exec.inScope handler.exec middle := by
  refine ⟨s.exec_adds open_, fun plain => Stmt.exec_names plain open_, ?_⟩
  rintro body handler location failure middle rfl failed
  rw [Stmt.exec_attempt]
  exact Exec.recover_names open_ failed

def Stmt.stumble : Stmt :=
  let zero : Expr := .int 0 {}
  let fails : Stmt := .block [.declare "z" .int false zero {}, .declare "x" .int true zero {},
    .evaluate (.binary .div zero zero {}) {}] {}
  .block [.assign "x" zero {}, .branch (.bool true {}) fails none {}] {}

def Stmt.rise : Stmt := .block [.declare "w" .int false (.reference "x" {}) {}] {}

theorem Stmt.exec_balanced_stumble :
    let before : Session := { env := [[], [("x", .int 1)]] }
    let after : Session := { env := [[], [("x", .int 0)]] }
    let failure : Failure := { fault := .run .divisionByZero }
    Exec.inScope Stmt.stumble.exec before = (.error failure, after) ∧
    after.env.keepOuter before.env.length = after.env ∧
    (Stmt.attempt .stumble .rise {}).exec before = Exec.inScope Stmt.rise.exec after ∧
    (Stmt.attempt .stumble .rise {}).exec before = (.ok (), after) ∧
    Env.Balanced none before.env after.env ∧ after.env.names = [[], ["x"]] := by
  intro before after failure
  have failed : Exec.inScope Stmt.stumble.exec before = (.error failure, after) := by cbv
  have runs : (Stmt.attempt .stumble .rise {}).exec before = (.ok (), after) := by cbv
  obtain ⟨balanced, names, handles⟩ :=
    Stmt.exec_balanced (.attempt .stumble .rise {}) before (List.cons_ne_nil _ _)
  obtain ⟨same, whole, handled⟩ := handles _ _ _ _ _ rfl failed
  rw [runs] at balanced
  exact ⟨failed, whole, handled, runs, balanced, same⟩

end Resumable
