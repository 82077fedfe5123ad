import Mathlib
import Resumable.Proofs.Eval.Lookups
import Resumable.Proofs.Lowered
import Resumable.Proofs.Lowering.Entry

/-! Scopes of lowering and of evaluation. Evaluation has a scope for every block. Lowering has none
for a block of one statement, so the two agree where nothing is used that such a block declares. -/

namespace Resumable

variable {settings : Settings} {arity : Nat} {e : Expr} {body : Body} {function : Function}
  {infos : List Variable} {s' : Stmt} {route : Route} {args : List Value}

theorem Body.Built.mirrored (built : body.Built function infos s' route)
    (accepted : checkArgs (function.params.map fun param => (param.name, param.type)) args = .ok ()) :
    Mirrored true [Parameter.naming function.params infos] (function.entry args)
      (Variable.entry infos args) := by
  have same : (infos.map Variable.localName).length = args.length := by
    simpa using (built.accepts accepted).length_eq
  have both : (function.params.map Parameter.name).length =
      (infos.map Variable.localName).length := by
    simpa using built.becomes.length_eq
  have names : (Variable.entry infos args).env.names = [infos.map Variable.localName] :=
    names_defineAll built.locals same fun _ _ impossible => by cases impossible
  refine ⟨built.paired accepted, names.trans ?_⟩
  rw [Parameter.naming, List.map_cons, List.map_snd_zip both.ge]
  rfl

theorem Body.build_of_bind {α : Type} {view : Function → α} {a : α}
    (seen : ((build settings arity e).toOption.bind fun _ => e.function?.map view) = some a) :
    ∃ body function, build settings arity e = .ok body ∧ e.function? = some function ∧
      view function = a := by
  cases done : build settings arity e with
  | error => rw [done] at seen; cases seen
  | ok body =>
      rw [done] at seen
      obtain ⟨function, literal, same⟩ := Option.map_eq_some_iff.mp seen
      exact ⟨body, function, rfl, literal, same⟩

/-- Lowering and evaluation agree about scopes, where no name that a block of one statement leaves
behind is used there. Evaluation has a value for every name that it comes to, in references and as
the target of assignments. It finds the value where the declaration put it that lowering resolved
the name to: in the run of the resolved function, in which each declaration has a name of its own,
that entry has the local name that lowering wrote in place of the name. -/
theorem Body.build_scopes (done : Body.build settings arity e = .ok body)
    (literal : e.function? = some function) (contained : function.body.contained = true)
    (accepted : checkArgs (function.params.map fun param => (param.name, param.type)) args = .ok ()) :
    (∀ failure name, e.runDirect args = .error failure →
      failure.fault ≠ .run (.unbound name) ∧ failure.fault ≠ .run (.unboundTarget name)) ∧
    ∃ infos s' route, body.Built function infos s' route ∧
      ∀ lookup ∈ function.body.lookups s' (function.entry args) (Variable.entry infos args),
        lookup.Agrees := by
  obtain ⟨_, infos, s', route, literal', built⟩ := Body.build_ok done
  obtain rfl := Option.some.inj (literal.symm.trans literal')
  have renamed := built.renamed contained
  refine ⟨fun failure name failed => ?_, infos, s', route, built,
    function.body.lookups_agree renamed (built.mirrored accepted)⟩
  obtain ⟨_, twin, _⟩ := function.body.exec_twin_after renamed (built.paired accepted)
  have answer : Exec.answer (function.body.exec (function.entry args)) = .error failure := by
    rw [← Function.runDirect_eq accepted, ← failed, Expr.runDirect, literal]
  refine (twin.own failure ?_).bound name
  rw [Exec.answer] at answer
  cases ended : (function.body.exec (function.entry args)).1 with
  | ok => rw [ended] at answer; cases answer
  | error => rw [ended] at answer; cases answer; rfl

/-- A coroutine that changes a variable while another of the same name is out of sight, and that
declares one in a block of one statement and never uses it. -/
def Source.shadow : Source :=
  let hand (e : Expr) : Stmt := .evaluate (.suspend e {}) {}
  let n : Expr := .reference "n" {}
  let x : Expr := .reference "x" {}
  { name := "shadow"
    arity := 1
    function := .function [⟨"n", .int, {}⟩] .int
      (.block [.declare "x" .int true (.int 1 {}) {}, .block [.declare "y" .int false x {}] {},
        .block [.declare "x" .int true n {}, hand x, .assign "x" (.binary .add x n {}) {}, hand x] {},
        hand x] {}) {} }

theorem Body.build_scopes_shadow : ∃ body function,
    Body.build {} Source.shadow.arity Source.shadow.function = .ok body ∧
    Source.shadow.function.function? = some function ∧ function.body.contained = true ∧
    checkArgs (function.params.map fun param => (param.name, param.type)) [.int 2] = .ok () ∧
    Source.shadow.function.runDirect [.int 2] = .ok [.int 2, .int 4, .int 1] ∧
    (∀ failure name, Source.shadow.function.runDirect [.int 2] = .error failure →
      failure.fault ≠ .run (.unbound name) ∧ failure.fault ≠ .run (.unboundTarget name)) ∧
    ∃ infos s' route, body.Built function infos s' route ∧
      ∀ lookup ∈ function.body.lookups s' (function.entry [.int 2])
        (Variable.entry infos [.int 2]), lookup.Agrees := by
  have seen : ((Body.build {} Source.shadow.arity Source.shadow.function).toOption.bind fun _ =>
      Source.shadow.function.function?.map fun function => (function.body.contained,
        checkArgs (function.params.map fun param => (param.name, param.type)) [.int 2],
        Source.shadow.function.runDirect [.int 2])) =
      some (true, .ok (), .ok [.int 2, .int 4, .int 1]) := by cbv
  obtain ⟨body, function, done, literal, same⟩ := Body.build_of_bind seen
  simp only [Prod.mk.injEq] at same
  obtain ⟨contained, accepted, runs⟩ := same
  obtain ⟨bound, agrees⟩ := Body.build_scopes done literal contained accepted
  exact ⟨body, function, done, literal, contained, accepted, runs, bound, agrees⟩

/-- A coroutine that hands out what a block of one statement has declared. -/
def Source.leak : Source :=
  { name := "leak"
    arity := 0
    function := .function [] .int (.block [.block [.declare "x" .int false (.int 1 {}) {}] {},
      .evaluate (.suspend (.reference "x" {}) {}) {}] {}) {} }

/-- Lowering resolves a name behind the block of one statement that declares it. Evaluation has left
the scope of the block and has no value for it. -/
theorem Body.build_leaks : ∃ body function failure,
    Body.build {} Source.leak.arity Source.leak.function = .ok body ∧
    Source.leak.function.function? = some function ∧
    checkArgs (function.params.map fun param => (param.name, param.type)) [] = .ok () ∧
    Source.leak.function.runDirect [] = .error failure ∧ failure.fault = .run (.unbound "x") := by
  have seen : ((Body.build {} Source.leak.arity Source.leak.function).toOption.bind fun _ =>
      Source.leak.function.function?.map fun function =>
        (checkArgs (function.params.map fun param => (param.name, param.type)) [],
          Source.leak.function.runDirect [])) =
      some (.ok (), .error { fault := .run (.unbound "x") }) := by cbv
  obtain ⟨body, function, done, literal, same⟩ := Body.build_of_bind seen
  obtain ⟨accepted, failed⟩ := Prod.mk.inj same
  exact ⟨body, function, { fault := .run (.unbound "x") }, done, literal, accepted, failed, rfl⟩

end Resumable
