import Mathlib
import Resumable.Lowered
import Resumable.Proofs.Lowering.Changes

/-! Lowering in strict mode. It refuses the first construct that would be kept whole, and does the
same as lowering in lax mode where there is none. -/

namespace Resumable

open Lower

def Draft.Quiet (_ : Nat) (before after : Draft) : Prop := after.warnings = before.warnings

def Warning.ofKept (kept : Construct × Location) : Warning := ⟨.keptWhole kept.1, kept.2⟩

def Failure.ofKept (kept : Construct × Location) : Failure :=
  ⟨.lowering (.unsplittable kept.1), kept.2⟩

/-- What strict mode makes of an answer that lax mode gives with some constructs kept whole. -/
def Failure.unlessKept {α : Type} (answer : α) : List (Construct × Location) → Except Failure α
  | [] => .ok answer
  | first :: _ => .error (ofKept first)

namespace Lower

/-- A step in strict mode beside the same step in lax mode. They do the same, warnings included, as
long as no construct is kept whole; the first one that would be kept is refused. -/
structure Stricter {α : Type} (strict lax : Lower α) : Prop where
  accepts : ∀ {before a after}, lax before = .ok (a, after) → ∃ kept,
    after.warnings = before.warnings ++ kept.map Warning.ofKept ∧
      strict before = Failure.unlessKept (a, after) kept
  fails : ∀ {before failure}, lax before = .error failure → ∃ failure',
    strict before = .error failure' ∧ (failure' = failure ∨ ∃ kept, failure' = .ofKept kept)

variable {α β : Type} {step other : Lower α} {next next' : α → Lower β} {count : Nat}

namespace Stricter

theorem same (quiet : Does Draft.Quiet count step) : Stricter step step where
  accepts := fun {before a after} done =>
    ⟨[], (quiet.changes before a after done).trans (List.append_nil _).symm, done⟩
  fails := fun failed => ⟨_, failed, .inl rfl⟩

theorem seq (first : Stricter step other) (rest : ∀ a, Stricter (next a) (next' a)) :
    Stricter (step >>= next) (other >>= next') where
  accepts := by
    intro before b after done
    obtain ⟨a, middle, early, late⟩ := bind_ok done
    obtain ⟨kept, warnings, mode⟩ := first.accepts early
    obtain ⟨more, warnings', mode'⟩ := (rest a).accepts late
    refine ⟨kept ++ more, by rw [warnings', warnings, List.map_append, List.append_assoc], ?_⟩
    cases kept with
    | nil => exact (bind_eq mode).trans mode'
    | cons construct _ => exact bind_error mode
  fails := by
    intro before failure failed
    rcases failed_bind failed with early | ⟨⟨a, middle⟩, early, late⟩
    · obtain ⟨failure', mode, alike⟩ := first.fails early
      exact ⟨failure', bind_error mode, alike⟩
    · obtain ⟨kept, _, mode⟩ := first.accepts early
      cases kept with
      | nil =>
          obtain ⟨failure', mode', alike⟩ := (rest a).fails late
          exact ⟨failure', (bind_eq mode).trans mode', alike⟩
      | cons construct _ => exact ⟨_, bind_error mode, .inr ⟨construct, rfl⟩⟩

theorem pure (a : α) : Stricter (Pure.pure a) (Pure.pure a) :=
  have quiet : Does Draft.Quiet 0 (Pure.pure a) :=
    ⟨fun _ _ _ done => congrArg Draft.warnings (pure_ok done).2⟩
  .same quiet

theorem refuse (kept : Construct × Location) {keep : Lower α} (quiet : Does Draft.Quiet count keep)
    (after : Unit → Lower α) :
    Stricter (throw (.ofKept kept) >>= after)
      (warn (.keptWhole kept.1) kept.2 >>= fun _ => keep) where
  accepts := by
    intro before a after done
    obtain ⟨_, middle, early, late⟩ := bind_ok done
    cases early
    exact ⟨[kept], quiet.changes _ _ _ late, rfl⟩
  fails := fun _ => ⟨_, rfl, .inr ⟨kept, rfl⟩⟩

end Stricter
end Lower

namespace Draft

theorem quiet_resolving : Draft.Resolving Quiet where
  refl := fun _ => rfl
  trans := fun first second => second.trans first
  opens := fun _ => ⟨fun _ _ _ done => by cases done; rfl⟩
  declares := by
    refine fun scope name type mutable parameter location => ⟨fun before var after done => ?_⟩
    unfold Lower.declare at done
    split at done
    · cases done
      rfl
    · cases done
  resolves := by
    refine fun scope e reads => ⟨fun before a after done => ?_⟩
    unfold Lower.resolve at done
    split at done
    · cases done
      rfl
    · cases done

theorem quiet_addNode (kind : NodeKind) (scope : ScopeId) (location : Location)
    (reads : List VarId) (declares : Option VarId) :
    Does Quiet 0 (addNode kind scope location reads declares) :=
  ⟨fun _ _ _ done => by cases done; rfl⟩

theorem quiet_connect (source target : NodeId) : Does Quiet 0 (connect source target) := by
  refine ⟨fun before a after done => ?_⟩
  unfold connect at done
  split at done
  · cases done
    rfl
  · cases done

end Draft

section Modes

open Draft

variable (yieldType : DataType)

theorem Lower.whole_stricter (construct : Construct) (s : Stmt) (scope : ScopeId) :
    Stricter (whole ⟨true, yieldType⟩ construct s scope)
      (whole ⟨false, yieldType⟩ construct s scope) := by
  rw [whole, whole]
  split
  · exact .same (.throw _ _ : Does Quiet 0 _)
  · exact .refuse (construct, s.location) (quiet_resolving.then_ quiet_resolving.get fun _ =>
      quiet_resolving.seq (s.resolveWhole_does quiet_resolving scope _) fun _ =>
      quiet_resolving.places quiet_addNode ..) _

mutual

theorem Stmt.lower_stricter (s : Stmt) (scope : ScopeId) :
    Stricter (s.lower ⟨true, yieldType⟩ scope) (s.lower ⟨false, yieldType⟩ scope) := by
  match s with
  | .declare name type mutable value location =>
      exact .same (quiet_resolving.declaration quiet_addNode ⟨false, yieldType⟩ ..)
  | .assign target value location =>
      exact .same (quiet_resolving.then_ (quiet_resolving.check _) fun _ =>
        quiet_resolving.then_ (quiet_resolving.target ..) fun _ =>
        quiet_resolving.then_ (quiet_resolving.resolves ..) fun _ =>
        quiet_resolving.places quiet_addNode ..)
  | .evaluate value location =>
      rw [Stmt.lower, Stmt.lower]
      split
      · exact .same (quiet_resolving.suspends quiet_addNode ⟨false, yieldType⟩ ..)
      · exact .same (quiet_resolving.plain scope value [] fun _ =>
          quiet_resolving.places quiet_addNode ..)
  | .branch condition thenBranch none location =>
      exact Stricter.seq (.same (quiet_resolving.forks quiet_addNode ..)) fun _ =>
        .seq (.same (quiet_resolving.opens _)) fun _ => .seq (thenBranch.lower_stricter _) fun _ =>
        .seq (.same (quiet_resolving.opens _)) fun _ =>
        .seq (.same (quiet_resolving.places quiet_addNode ..)) fun _ =>
        .same (quiet_resolving.joins quiet_connect ..)
  | .branch condition thenBranch (some elseBranch) location =>
      exact Stricter.seq (.same (quiet_resolving.forks quiet_addNode ..)) fun _ =>
        .seq (.same (quiet_resolving.opens _)) fun _ => .seq (thenBranch.lower_stricter _) fun _ =>
        .seq (.same (quiet_resolving.opens _)) fun _ => .seq (elseBranch.lower_stricter _) fun _ =>
        .same (quiet_resolving.joins quiet_connect ..)
  | .block body location => exact Stmt.lowerBlock_stricter body scope location
  | .loop .. | .select .. | .attempt .. => exact whole_stricter yieldType _ _ scope

theorem Stmt.lowerBlock_stricter (body : List Stmt) (scope : ScopeId) (location : Location) :
    Stricter (Stmt.lowerBlock ⟨true, yieldType⟩ scope location body)
      (Stmt.lowerBlock ⟨false, yieldType⟩ scope location body) := by
  match body with
  | [] => exact .same (quiet_resolving.places quiet_addNode ..)
  | [only] => exact only.lower_stricter scope
  | first :: second :: rest =>
      exact Stricter.seq (.same (quiet_resolving.opens _)) fun _ =>
        .seq (first.lower_stricter _) fun _ =>
        .seq (Stmt.lowerAfter_stricter (second :: rest) _ _) fun _ => .pure _

theorem Stmt.lowerAfter_stricter (rest : List Stmt) (scope : ScopeId) (last : NodeId) :
    Stricter (Stmt.lowerAfter ⟨true, yieldType⟩ scope last rest)
      (Stmt.lowerAfter ⟨false, yieldType⟩ scope last rest) := by
  match rest with
  | [] => exact .pure _
  | s :: rest =>
      exact Stricter.seq (s.lower_stricter scope) fun _ => .seq (.same (quiet_connect ..)) fun _ =>
        Stmt.lowerAfter_stricter rest scope _

end

theorem Lower.function_stricter (function : Function) :
    Stricter (Lower.function ⟨true, yieldType⟩ function)
      (Lower.function ⟨false, yieldType⟩ function) :=
  Stricter.seq (.same (declareParams_does quiet_resolving _)) fun _ =>
    .seq (function.body.lower_stricter yieldType _) fun _ =>
    .seq (.same (⟨fun _ _ _ done => by cases done; rfl⟩ : Does Quiet 0 _)) fun _ => .pure _

end Modes

/-- The construct that a warning says was kept whole, with its place. -/
def Warning.kept? (warning : Warning) : Option (Construct × Location) :=
  match warning.cause with
  | .keptWhole construct => some (construct, warning.location)
  | _ => none

/-- What was kept whole of a body, in the order of the warnings. -/
def Body.kept (body : Body) : List (Construct × Location) := body.warnings.filterMap Warning.kept?

theorem Body.kept_eq_nil_iff (body : Body) : body.kept = [] ↔
    ∀ warning ∈ body.warnings, ∀ construct, warning.cause ≠ .keptWhole construct := by
  rw [kept, List.filterMap_eq_nil_iff]
  refine forall₂_congr fun warning _ => ?_
  unfold Warning.kept?
  split
  · rename_i construct cause
    exact ⟨fun impossible => absurd impossible (Option.some_ne_none _),
      fun free => absurd cause (free construct)⟩
  · rename_i other
    exact ⟨fun _ construct => other construct, fun _ => rfl⟩

theorem Lower.kept_unusedWarnings (draft : Draft) :
    (unusedWarnings draft).filterMap Warning.kept? = [] := by
  rw [List.filterMap_eq_nil_iff]
  intro warning member
  obtain ⟨var, _, rfl⟩ := List.mem_map.mp member
  unfold unusedWarning Warning.kept?
  cases var.parameter <;> rfl

theorem Lower.kept_warnings (kept : List (Construct × Location)) :
    (kept.map Warning.ofKept).filterMap Warning.kept? = kept := by
  rw [List.filterMap_map]
  exact List.filterMap_some

section Whole

variable (settings : Settings) {arity : Nat} {e : Expr} {body : Body} {failure : Failure}

/-- A body that is built in lax mode is built in strict mode too unless something was kept whole,
and then the first of that is refused. -/
theorem Body.build_strict
    (done : Body.build { settings with strict := false } arity e = .ok body) :
    Body.build { settings with strict := true } arity e = Failure.unlessKept body body.kept := by
  unfold Body.build at done ⊢
  cases given : e.function? with
  | none => simp [given] at done
  | some function =>
      simp only [given] at done ⊢
      split at done
      · cases done
      · rename_i counted
        rw [if_neg counted]
        obtain ⟨⟨params, draft⟩, inFunction, done⟩ := ok_bind done
        cases done
        obtain ⟨kept, warnings, mode⟩ :=
          (Lower.function_stricter function.yieldType function).accepts inFunction
        have same : (draft.warnings ++ unusedWarnings draft).filterMap Warning.kept? = kept := by
          rw [List.filterMap_append, warnings, kept_unusedWarnings, List.append_nil]
          exact kept_warnings kept
        rw [Body.kept, same]
        change (Lower.function ⟨true, function.yieldType⟩ function {} >>= _) = _
        rw [mode]
        cases kept <;> rfl

theorem Body.build_strict_error
    (failed : Body.build { settings with strict := false } arity e = .error failure) :
    ∃ failure', Body.build { settings with strict := true } arity e = .error failure' ∧
      (failure' = failure ∨ ∃ kept, failure' = .ofKept kept) := by
  unfold Body.build at failed ⊢
  cases given : e.function? with
  | none =>
      simp only [given] at failed ⊢
      exact ⟨_, rfl, .inl (Except.error.inj failed)⟩
  | some function =>
      simp only [given] at failed ⊢
      split at failed
      · rename_i counted
        rw [if_pos counted]
        exact ⟨_, rfl, .inl (Except.error.inj failed)⟩
      · rename_i counted
        rw [if_neg counted]
        rcases failed_bind failed with inFunction | ⟨_, _, impossible⟩
        · obtain ⟨failure', mode, alike⟩ :=
            (Lower.function_stricter function.yieldType function).fails inFunction
          refine ⟨failure', ?_, alike⟩
          change (Lower.function ⟨true, function.yieldType⟩ function {} >>= _) = _
          rw [mode]
          rfl
        · cases impossible

def Source.complete (source : Source) (body : Body) : Except Failure Lowered := do
  let analysis ← body.analyze settings
  let machine ← (body.emit analysis settings source.name).1
  return { name := source.name, body, analysis, machine }

theorem Source.lower_mode (strict : Bool) (source : Source) :
    source.lower { settings with strict } =
      (Body.build { settings with strict } source.arity source.function >>=
        source.complete settings) :=
  rfl

/-- What lax mode accepts is accepted in strict mode, to the same end, if nothing was kept whole. -/
theorem Source.lower_strict {source : Source} {lowered : Lowered}
    (done : source.lower { settings with strict := false } = .ok lowered) :
    source.lower { settings with strict := true } =
      Failure.unlessKept lowered lowered.body.kept := by
  rw [lower_mode] at done ⊢
  obtain ⟨body, built, finished⟩ := ok_bind done
  obtain ⟨analysis, _, emitting⟩ := ok_bind finished
  obtain ⟨machine, _, made⟩ := ok_bind emitting
  cases made
  rw [Body.build_strict settings built]
  cases body.kept with
  | nil => exact finished
  | cons first rest => rfl

theorem Source.lower_strict_error {source : Source}
    (failed : source.lower { settings with strict := false } = .error failure) :
    ∃ failure', source.lower { settings with strict := true } = .error failure' ∧
      (failure' = failure ∨ ∃ kept, failure' = .ofKept kept) := by
  rw [lower_mode] at failed ⊢
  rcases failed_bind failed with building | ⟨body, built, finishing⟩
  · obtain ⟨failure', mode, alike⟩ := Body.build_strict_error settings building
    refine ⟨failure', ?_, alike⟩
    rw [mode]
    rfl
  · rw [Body.build_strict settings built]
    cases body.kept with
    | nil => exact ⟨failure, finishing, .inl rfl⟩
    | cons first rest => exact ⟨_, rfl, .inr ⟨first, rfl⟩⟩

/-- Strict mode only rejects. It accepts just those sources that lax mode accepts without a warning
that something was kept whole, and comes to the same graph, symbols, warnings, regions and machine.
Of a source that has such warnings it refuses the construct of the first one. -/
theorem Source.strict_only_rejects (source : Source) :
    (∀ lowered, source.lower { settings with strict := true } = .ok lowered ↔
      source.lower { settings with strict := false } = .ok lowered ∧
        ∀ warning ∈ lowered.body.warnings, ∀ construct, warning.cause ≠ .keptWhole construct) ∧
    (∀ lowered first rest, source.lower { settings with strict := false } = .ok lowered →
      lowered.body.kept = first :: rest →
      source.lower { settings with strict := true } = .error (.ofKept first)) ∧
    ∀ failure, source.lower { settings with strict := false } = .error failure →
      ∃ failure', source.lower { settings with strict := true } = .error failure' ∧
        (failure' = failure ∨ ∃ kept, failure' = .ofKept kept) := by
  refine ⟨fun lowered => ?_, fun lowered first rest done found => ?_,
    fun failure failed => lower_strict_error settings failed⟩
  · rw [← lowered.body.kept_eq_nil_iff]
    constructor
    · intro accepted
      cases lax : source.lower { settings with strict := false } with
      | error failure =>
          obtain ⟨_, refused, _⟩ := lower_strict_error settings lax
          cases accepted.symm.trans refused
      | ok other =>
          have mode := lower_strict settings lax
          cases kept : other.body.kept with
          | nil =>
              rw [kept] at mode
              cases accepted.symm.trans mode
              exact ⟨rfl, kept⟩
          | cons first rest =>
              rw [kept] at mode
              cases accepted.symm.trans mode
    · rintro ⟨lax, free⟩
      rw [lower_strict settings lax, free]
      rfl
  · rw [lower_strict settings done, found]
    rfl

end Whole

/-- A coroutine with a loop beside a suspension in one branch, and a suspension behind both. -/
def Source.looping : Source :=
  let hand (n : Int64) : Stmt := .evaluate (.suspend (.int n {}) {}) {}
  let c : Expr := .reference "c" {}
  { name := "looping"
    arity := 1
    function := .function [⟨"c", .bool, {}⟩] .int
      (.block [.branch c (.block [.loop c (.block [] {}) {}, hand 1] {}) none {}, hand 2] {}) {} }

theorem Source.strict_only_rejects_loop : ∃ lowered,
    looping.lower {} = .ok lowered ∧ lowered.machine.states.length = 2 ∧
      lowered.body.kept = [(.loop, {})] ∧
      looping.lower { strict := true } = .error (.ofKept (.loop, {})) := by
  have seen : (do
      let lowered ← looping.lower {}
      return (lowered.machine.states.length, lowered.body.kept)) = .ok (2, [(.loop, {})]) := by cbv
  obtain ⟨lowered, done, seen⟩ := ok_bind seen
  obtain ⟨states, kept⟩ := Prod.mk.inj (Except.ok.inj seen)
  exact ⟨lowered, done, states, kept,
    (strict_only_rejects {} looping).2.1 lowered (.loop, {}) [] done kept⟩

end Resumable
