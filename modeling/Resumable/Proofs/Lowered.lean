import Resumable.Eval.Instance
import Resumable.Proofs.Lowering.Faults
import Resumable.Proofs.Machine.States

/-! Lowering from end to end. What the first stage accepts passes through all the others. -/

namespace Resumable

variable {settings : Settings} {source : Source} {lowered : Lowered} {function : Function}
  {infos : List Variable} {s' : Stmt} {route : Route}

/-- A lowered coroutine with the route that its graph, its regions and its states have in common. -/
structure Lowered.Traced (lowered : Lowered) (settings : Settings) (function : Function)
    (infos : List Variable) (s' : Stmt) (route : Route) : Prop where
  built : lowered.body.Built function infos s' route
  covers : lowered.analysis.Covers lowered.body settings route
  emitted : lowered.machine.Emitted lowered.body lowered.analysis settings infos route

/-- A body that was built is analysed and emitted. -/
theorem Source.lower_of_built {body : Body} (built : body.Built function infos s' route)
    (done : Body.build settings source.arity source.function = .ok body) :
    ∃ analysis machine, body.analyze settings = .ok analysis ∧
      (body.emit analysis settings source.name).1 = .ok machine ∧ machine.name = source.name ∧
      source.lower settings = .ok ⟨source.name, body, analysis, machine⟩ ∧
      Lowered.Traced ⟨source.name, body, analysis, machine⟩ settings function infos s' route := by
  obtain ⟨analysis, analysed, covers⟩ := built.analyze settings
  obtain ⟨machine, emits, named, emitted⟩ := Body.emit_ok built covers settings source.name
  refine ⟨analysis, machine, analysed, emits, named, ?_, built, covers, emitted⟩
  rw [Source.lower, done]
  change (do
    let analysis ← body.analyze settings
    let machine ← (body.emit analysis settings source.name).1
    return ({ name := source.name, body, analysis, machine } : Lowered)) = _
  rw [analysed]
  change (do
    let machine ← (body.emit analysis settings source.name).1
    return ({ name := source.name, body, analysis, machine } : Lowered)) = _
  rw [emits]
  rfl

theorem Source.lower_traced (done : source.lower settings = .ok lowered) :
    ∃ function infos s' route, source.function.function? = some function ∧
      lowered.Traced settings function infos s' route := by
  obtain ⟨body, build, _⟩ := ok_bind done
  obtain ⟨function, infos, s', route, literal, built⟩ := Body.build_ok build
  obtain ⟨_, _, _, _, _, same, traced⟩ := lower_of_built built build
  cases Except.ok.inj (done.symm.trans same)
  exact ⟨function, infos, s', route, literal, traced⟩

theorem Failure.Ruled.kind {failure : Failure} (ruled : failure.Ruled) :
    failure.diagnostic.kind ∈ [.malformedInput, .unsupportedConstruct, .rule, .type] := by
  obtain ⟨fault, same⟩ := ruled
  have kind : failure.diagnostic.kind = fault.kind := by rw [Failure.diagnostic, same]; rfl
  rw [kind]
  cases fault <;> simp [LoweringFault.kind]

/-- Lowering blames the program for every failure: once a graph is built, all later stages succeed.
-/
theorem Source.lower_blames_program (settings : Settings) (source : Source) :
    ((∃ lowered, source.lower settings = .ok lowered) ∨
      ∃ failure, source.lower settings = .error failure ∧
        failure.diagnostic.kind ∈ [.malformedInput, .unsupportedConstruct, .rule, .type]) ∧
    match Body.build settings source.arity source.function with
    | .error failure => source.lower settings = .error failure
    | .ok body => ∃ analysis machine, body.analyze settings = .ok analysis ∧
        (body.emit analysis settings source.name).1 = .ok machine ∧
        source.lower settings = .ok ⟨source.name, body, analysis, machine⟩ := by
  cases build : Body.build settings source.arity source.function with
  | error failure =>
      have failed : source.lower settings = .error failure := by rw [Source.lower, build]; rfl
      exact ⟨.inr ⟨failure, failed, (Body.build_ruled build).kind⟩, failed⟩
  | ok body =>
      obtain ⟨_, _, _, _, _, built⟩ := Body.build_ok build
      obtain ⟨analysis, machine, analysed, emits, _, done, _⟩ := lower_of_built built build
      exact ⟨.inl ⟨_, done⟩, analysis, machine, analysed, emits, done⟩

/-- A coroutine that hands out a quotient, in one of two branches behind something else. The region
behind that comes after the one behind both branches, and goes on in it. -/
def Source.fork : Source :=
  let hand (e : Expr) : Stmt := .evaluate (.suspend e {}) {}
  let x : Expr := .reference "x" {}
  { name := "fork"
    arity := 2
    function := .function [⟨"c", .bool, {}⟩, ⟨"n", .int, {}⟩] .int
      (.block [.declare "x" .int false (.binary .div (.int 10 {}) (.reference "n" {}) {}) {},
        .branch (.reference "c" {}) (hand x) (some (.block [hand (.int 2 {}), hand x] {})) {}] {}) {} }

/-- What is seen of a coroutine that can be lowered, once its machine was started. -/
theorem Source.start_of_bind {α : Type} {args : List Value} {view : Lowered → Instance → α} {a : α}
    (seen : ((source.lower settings).bind fun lowered =>
      (Instance.start lowered.machine args settings).map (view lowered)) = .ok a) :
    ∃ lowered first, source.lower settings = .ok lowered ∧
      Instance.start lowered.machine args settings = .ok first ∧ view lowered first = a := by
  obtain ⟨lowered, done, seen⟩ := ok_bind seen
  cases started : Instance.start lowered.machine args settings with
  | error => rw [started] at seen; cases seen
  | ok first =>
      rw [started] at seen
      exact ⟨lowered, first, done, started, Except.ok.inj seen⟩

end Resumable
