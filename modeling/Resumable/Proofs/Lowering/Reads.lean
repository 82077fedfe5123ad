import Resumable.Proofs.Eval.Known
import Resumable.Proofs.Lowering.WellFormed

/-! The variables that are recorded at a node are those that its fragment comes to: whoever binds
them can run the fragment. -/

namespace Resumable

open Symbols

namespace NodeKind

def names : NodeKind → List String
  | branch condition _ => condition.references
  | merge => []
  | suspend payload => payload.references
  | statement s => s.names

/-- The names that a fragment refers or assigns to without declaring them before. -/
def free : NodeKind → List String
  | branch condition _ => condition.references
  | merge => []
  | suspend payload => payload.references
  | statement s => s.free

def bound : NodeKind → List String
  | statement s => s.bound
  | _ => []

def declared? : NodeKind → Option String
  | statement s => s.declared?
  | _ => none

/-- What running a fragment does: a condition and a payload are evaluated, a merge does nothing. -/
def exec : NodeKind → Exec Unit
  | branch condition _ => discard (Exec.condition condition)
  | merge => pure ()
  | suspend payload => discard (Exec.value payload)
  | statement s => s.exec

variable {symbols : Symbols} {site : Site}

theorem mem_names (kind : NodeKind) (name : String) :
    name ∈ kind.names ↔ name ∈ kind.free ∨ name ∈ kind.bound := by
  cases kind with
  | statement s => exact s.mem_names name
  | _ => simp [names, free, bound]

theorem exec_bound (kind : NodeKind) {session : Session} {failure : Failure}
    (knows : session.env.Knows kind.free) (failed : (kind.exec session).1 = .error failure) :
    failure.Bound := by
  cases kind with
  | branch condition _ =>
      rw [exec, Exec.discard_apply, Exec.condition_apply] at failed
      cases tested : condition.evalCondition session.env with
      | error found =>
          rw [tested] at failed
          cases failed
          exact Expr.evalCondition_bound knows tested
      | ok =>
          rw [tested] at failed
          cases failed
  | merge => cases failed
  | suspend payload =>
      rw [exec, Exec.discard_apply, Exec.value_apply] at failed
      cases evaluated : payload.eval session.env with
      | error found =>
          rw [evaluated] at failed
          cases failed
          exact payload.eval_bound knows evaluated
      | ok =>
          rw [evaluated] at failed
          cases failed
  | statement s => exact s.exec_bound knows failed

theorem Fits.footprint {kind : NodeKind} (fits : kind.Fits symbols site) :
    Footprint symbols kind.free site.reads := by
  cases kind with
  | branch => exact fits.2.toFootprint
  | merge =>
      rw [fits.2]
      exact .nil symbols
  | suspend => exact fits.2.toFootprint
  | statement => exact Stmt.Fits.toFootprint fits

theorem Fits.bound {kind : NodeKind} (fits : kind.Fits symbols site) :
    ∀ name ∈ kind.bound, ∃ var : Nat, site.first ≤ var ∧ Named symbols var name := by
  cases kind with
  | statement => exact Stmt.Fits.bound fits
  | _ => simp [NodeKind.bound]

theorem Fits.rel_declared? {kind : NodeKind} (fits : kind.Fits symbols site) :
    Option.Rel symbols.Named site.declares kind.declared? := by
  cases kind with
  | statement s =>
      rw [declared?]
      rcases Stmt.Fits.declares fits with ⟨neither, none_⟩ | ⟨var, name, declared, made, named⟩
      · rw [neither, none_]
        exact .none
      · rw [declared, made]
        exact .some named
  | _ =>
      rw [fits.1]
      exact .none

end NodeKind

/-- A node that records what its fragment does with variables. The reads are the variables whose
local names occur in the fragment and are not declared inside, and where these have values, no name
that the fragment comes to lacks one. -/
structure Node.Recorded (symbols : Symbols) (node : Node) : Prop where
  distinct : node.reads.Nodup
  reads : ∀ var, var ∈ node.reads ↔
    ∃ name ∈ node.kind.names, name ∉ node.kind.bound ∧ symbols.Named var name
  declares : Option.Rel symbols.Named node.declares node.kind.declared?
  runs : ∀ session : Session,
    (∀ var ∈ node.reads, ∀ name, symbols.Named var name → (session.env.get? name).isSome) →
    ∀ failure, (node.kind.exec session).1 = .error failure → failure.Bound

theorem Node.Is.recorded {symbols : Symbols} {site : Site} {context : Context} {node : Node}
    {successors : List NodeId} (is : node.Is site node.kind successors)
    (sound : symbols.Sound) (within : site.Within context)
    (fits : node.kind.Fits symbols site) : node.Recorded symbols := by
  have footprint := fits.footprint
  have sees : ∀ var, var ∈ site.reads ↔ ∃ name ∈ node.kind.free, symbols.Named var name :=
    fun var => footprint.mem_iff sound
  refine ⟨is.reads ▸ footprint.distinct, fun var => ?_, ?_, fun session binds failure failed => ?_⟩
  · rw [is.reads, sees]
    constructor
    · rintro ⟨name, free, named⟩
      refine ⟨name, (node.kind.mem_names name).mpr (.inl free), fun bound => ?_, named⟩
      -- a variable that is known here is older than all that is declared inside
      obtain ⟨other, new, named'⟩ := fits.bound name bound
      obtain rfl := named.unique sound named'
      have old := within.older var (within.reads var ((sees var).mpr ⟨name, free, named⟩))
      exact absurd old (Nat.not_lt.mpr new)
    · rintro ⟨name, occurs, unbound, named⟩
      exact ⟨name, ((node.kind.mem_names name).mp occurs).resolve_right unbound, named⟩
  · exact is.declares ▸ fits.rel_declared?
  · refine node.kind.exec_bound (fun name free => ?_) failed
    obtain ⟨var, listed, named⟩ := footprint.covered name free
    exact binds var (is.reads ▸ listed) name named

/-- Every node of a lowered body records what its fragment does with variables. -/
theorem Body.build_reads {settings : Settings} {arity : Nat} {e : Expr} {body : Body}
    (done : Body.build settings arity e = .ok body) {id : NodeId} {node : Node}
    (present : body.graph.node? id = some node) : node.Recorded body.symbols := by
  obtain ⟨function, infos, s', route, _, built⟩ := Body.build_ok done
  obtain ⟨_, _, _, _, leads⟩ := built.leads
  obtain ⟨site, inside, ⟨_, is⟩, fits⟩ :=
    built.laid.site built.fits (built.mem_ids present) present
  obtain ⟨_, within⟩ := leads.within_of_mem inside
  exact is.recorded built.sound within fits

/-- A coroutine with a loop that stays in one piece and declares a name of its own there, which the
coroutine has as well. -/
def Source.inward : Source :=
  let n : Expr := .reference "n" {}
  let x : Expr := .reference "x" {}
  { name := "inward"
    arity := 1
    function := .function [⟨"n", .int, {}⟩] .int
      (.block [.declare "x" .int true n {},
        .loop (.binary .lt x n {}) (.block [.declare "n" .int false x {}, .assign "x" n {}] {}) {},
        .evaluate (.suspend x {}) {}] {}) {} }

theorem Body.build_reads_inward : ∃ body node,
    Body.build {} Source.inward.arity Source.inward.function = .ok body ∧
    body.graph.node? 1 = some node ∧ node.reads = [1, 0] ∧
    node.kind.names = ["x", "n", "n$1", "x", "x", "n$1"] ∧ node.kind.bound = ["n$1"] ∧
    node.Recorded body.symbols := by
  have seen : ((Body.build {} Source.inward.arity Source.inward.function).map fun body =>
      (body.graph.node? 1).map fun node => (node.reads, node.kind.names, node.kind.bound)) =
      .ok (some ([1, 0], ["x", "n", "n$1", "x", "x", "n$1"], ["n$1"])) := by cbv
  cases done : Body.build {} Source.inward.arity Source.inward.function with
  | error => rw [done] at seen; cases seen
  | ok body =>
      rw [done] at seen
      obtain ⟨node, present, shape⟩ := Option.map_eq_some_iff.mp (Except.ok.inj seen)
      simp only [Prod.mk.injEq] at shape
      obtain ⟨reads, names, bound⟩ := shape
      exact ⟨body, node, rfl, present, reads, names, bound, Body.build_reads done present⟩

end Resumable
