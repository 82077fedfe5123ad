import Mathlib
import Resumable.Proofs.Lowering.Suspensions
import Resumable.Proofs.Machine.States

/-! Suspensions from the text of a body to its machine: one node for each, and no suspension and no
function literal in any fragment or piece of code. -/

namespace Resumable

open Symbols Lower

def NodeKind.plain : NodeKind → Bool
  | branch condition _ => condition.plain
  | merge => true
  | suspend payload => payload.plain
  | statement s => s.plain

mutual

/-- Neither a suspension nor a function literal occurs in the code. -/
def Emitted.plain : Emitted → Bool
  | .run s => s.plain
  | .branch condition thenBlock elseBlock =>
    condition.plain && (Emitted.allPlain thenBlock && Emitted.allPlain elseBlock)
  | .result value => value.plain
  | _ => true

def Emitted.allPlain : List Emitted → Bool
  | [] => true
  | code :: rest => code.plain && Emitted.allPlain rest

end

namespace Emitted

theorem allPlain_append (first second : List Emitted) :
    allPlain (first ++ second) = (allPlain first && allPlain second) := by
  induction first with
  | nil => rfl
  | cons code rest ih => rw [List.cons_append, allPlain, ih, allPlain, Bool.and_assoc]

theorem allPlain_map {make : Variable → Emitted} (plain : ∀ info, (make info).plain = true)
    (infos : List Variable) : allPlain (infos.map make) = true := by
  induction infos with
  | nil => rfl
  | cons info rest ih => rw [List.map_cons, allPlain, plain, ih]; rfl

end Emitted

section Fits

variable {symbols : Symbols} {route : Route}

theorem Expr.Fits.plain {reads : List VarId} {e : Expr} (fits : e.Fits symbols reads) :
    e.plain = true := by
  obtain ⟨source, namings, renamed⟩ := fits.renamed
  exact renamed.plain.2

theorem Stmt.Fits.plain {site : Site} {s : Stmt} (fits : s.Fits symbols site) :
    s.plain = true := by
  obtain ⟨source, outer, inner, renamed⟩ := fits.renamed
  exact (Stmt.Renamed.plain source renamed).2

theorem NodeKind.Fits.plain {site : Site} {kind : NodeKind} (fits : kind.Fits symbols site) :
    kind.plain = true := by
  cases kind with
  | branch condition merge => exact fits.2.plain
  | merge => rfl
  | suspend payload => exact fits.2.plain
  | statement s => exact Stmt.Fits.plain fits

theorem Emit.statementCode_plain {s : Stmt} (plain : s.plain = true) :
    Emitted.allPlain (Emit.statementCode s) = true := by
  unfold Emit.statementCode
  split
  · rfl
  · rw [Emitted.allPlain, Emitted.plain, s.plain_untyped, plain]
    rfl

theorem Route.Fits.code_plain {leave : Site → Expr → List Emitted} (fits : route.Fits symbols)
    (leaves : ∀ site payload, payload.plain = true → Emitted.allPlain (leave site payload) = true) :
    Emitted.allPlain (route.code leave) = true := by
  induction route with
  | stop => rfl
  | plain site statement rest ih =>
      cases statement with
      | none => exact ih fits.2.2
      | some s =>
          rw [Route.code, Emitted.allPlain_append, Emit.statementCode_plain fits.2.1.plain,
            ih fits.2.2]
          rfl
  | suspend site payload rest _ => exact leaves site payload fits.2.2.1.plain
  | branch site condition thenRoute elseRoute rest thenIH elseIH ih =>
      obtain ⟨_, _, test, fitsThen, fitsElse, fitsRest⟩ := fits
      have behind : Emitted.allPlain (if thenRoute.passes || elseRoute.passes then rest.code leave
          else []) = true := by
        split
        · exact ih fitsRest
        · rfl
      rw [Route.code, Emitted.allPlain, Emitted.plain, condition.plain_untyped, test.plain,
        thenIH fitsThen, elseIH fitsElse, behind]
      rfl

end Fits

section State

variable {body : Body} {analysis : Analysis} {region : Region} {tail : Route}

theorem Region.arrival_plain : Emitted.allPlain (region.arrival body analysis) = true := by
  unfold Region.arrival
  split
  · exact Emitted.allPlain_map (fun _ => rfl) _
  · exact Emitted.allPlain_map (fun _ => rfl) _

theorem Region.leaving_plain (site : Site) {payload : Expr} (plain : payload.plain = true) :
    Emitted.allPlain (region.leaving body analysis site payload) = true := by
  rw [Region.leaving, Emitted.allPlain_append, Emitted.allPlain_map fun _ => rfl]
  simp [Emitted.allPlain, Emitted.plain, payload.plain_untyped, plain]

theorem Region.state_plain (fits : tail.Fits body.symbols) :
    Emitted.allPlain (region.state body analysis tail).statements = true := by
  have epilogue : ∀ flow, Emitted.allPlain (Emit.epilogue flow) = true := fun flow => by
    cases flow <;> rfl
  rw [Region.state, Emitted.allPlain_append, Region.arrival_plain, Region.conduct,
    Emitted.allPlain_append, fits.code_plain fun site _ => leaving_plain site, epilogue]
  rfl

end State

/-- A node that hands out a payload of the text, with every name replaced by the local name of the
variable that it means there: the innermost one among those declared before. -/
def Node.Hands (symbols : Symbols) (node : Node) (found : Nat × Expr) : Prop :=
  ∃ payload, node.kind = .suspend payload ∧ found.2.RenamedBy
    (fun name => (symbols.resolveAmong? found.1 node.scope name).map Variable.localName) payload

theorem Graph.suspensions_hand {symbols : Symbols} {graph : Graph} {found : List (Nat × Expr)}
    (each : List.Forall₂ symbols.Hands found graph.handed) :
    List.Forall₂ (Node.Hands symbols) (graph.nodes.toList.filter Node.isSuspension) found := by
  rw [Graph.handed] at each
  generalize graph.nodes.toList = nodes at each ⊢
  induction nodes generalizing found with
  | nil =>
      cases each
      exact .nil
  | cons node rest ih =>
      cases kind : node.kind with
      | suspend payload =>
          have given : node.handed? = some (node.scope, payload) := by
            rw [Node.handed?, kind]
            rfl
          have suspends : node.isSuspension = true := by
            rw [Node.isSuspension, kind]
            rfl
          rw [List.filterMap_cons_some given] at each
          rw [List.filter_cons_of_pos suspends]
          cases each with
          | cons hands others => exact .cons ⟨payload, kind, hands.renamed⟩ (ih others)
      | branch | merge | statement =>
          have nothing : node.handed? = none := by
            rw [Node.handed?, kind]
            rfl
          have calm : ¬ node.isSuspension = true := by
            rw [Node.isSuspension, kind]
            exact Bool.false_ne_true
          rw [List.filterMap_cons_none nothing] at each
          rw [List.filter_cons_of_neg calm]
          exact ih each

theorem Lower.function_hands {context : LoweringContext} {function : Function}
    {params : List VarId} {draft : Draft}
    (done : Lower.function context function {} = .ok (params, draft)) :
    function.body.orderly = true ∧ List.Forall₂ draft.symbols.Hands
      (function.body.payloads function.params.length) draft.graph.handed := by
  obtain ⟨_, middle, declaring, done⟩ := bind_ok done
  obtain ⟨piece, after, lowering, done⟩ := bind_ok done
  obtain ⟨_, _, heading, done⟩ := bind_ok done
  cases heading
  obtain ⟨rfl, rfl⟩ := pure_ok done
  obtain ⟨infos, rfl, declares⟩ := declareParams_ok function.params initial_sound initial_open
    declaring
  have count := (declareParams_does Draft.counted_building.toResolving _).changes _ _ _ declaring
  obtain ⟨orderly, given, here, each⟩ :=
    function.body.lower_hands context declares.sound declares.open_ lowering
  have empty : middle.graph.handed = [] := by
    rw [declares.graph]
    rfl
  rw [empty, List.nil_append] at here
  rw [count, ← here] at each
  rw [← Nat.zero_add function.params.length]
  exact ⟨orderly, each⟩

/-- No suspension is lost or made up. A body with one in a place where it cannot be split, or with a
function literal, is rejected; else the suspensions of the graph are those of the text, in the same
order, and neither a fragment nor the code of a machine has a suspension or a function literal. -/
theorem Body.build_suspensions {settings : Settings} {arity : Nat} {e : Expr}
    {function : Function} (literal : e.function? = some function) :
    (function.body.orderly = false → ∃ failure, Body.build settings arity e = .error failure) ∧
    ∀ body, Body.build settings arity e = .ok body →
      List.Forall₂ (Node.Hands body.symbols) (body.graph.nodes.toList.filter Node.isSuspension)
        (function.body.payloads function.params.length) ∧
      (∀ id node, body.graph.node? id = some node → node.kind.plain = true) ∧
      ∀ settings' name, ∃ analysis machine, body.analyze settings' = .ok analysis ∧
        (body.emit analysis settings' name).1 = .ok machine ∧
        ∀ state ∈ machine.states, Emitted.allPlain state.statements = true := by
  have accepted : ∀ body, Body.build settings arity e = .ok body →
      function.body.orderly = true ∧ List.Forall₂ body.symbols.Hands
        (function.body.payloads function.params.length) body.graph.handed := by
    intro body done
    unfold Body.build at done
    simp only [literal] at done
    split at done
    · cases done
    · obtain ⟨⟨params, draft⟩, lowering, done⟩ := ok_bind done
      cases done
      exact Lower.function_hands lowering
  constructor
  · intro disorderly
    cases done : Body.build settings arity e with
    | error failure => exact ⟨failure, rfl⟩
    | ok body =>
        rw [(accepted body done).1] at disorderly
        cases disorderly
  · intro body done
    obtain ⟨function', infos, s', route, _, built⟩ := Body.build_ok done
    refine ⟨Graph.suspensions_hand (accepted body done).2, fun id node present => ?_,
      fun settings' name => ?_⟩
    · obtain ⟨_, _, fits⟩ := built.laid.fragment built.fits (built.mem_ids present) present
      exact fits.plain
    obtain ⟨analysis, analysed, covers⟩ := built.analyze settings'
    obtain ⟨machine, emits, _, emitted⟩ := Body.emit_ok built covers settings' name
    refine ⟨analysis, machine, analysed, emits, fun state member => ?_⟩
    rw [emitted.states] at member
    obtain ⟨region, _, rfl⟩ := List.mem_map.mp member
    refine Region.state_plain ?_
    unfold Region.part
    cases search : route.tails.find? fun tail => tail.first? = some region.start with
    | none => trivial
    | some tail => exact built.fits.of_mem_tails (List.mem_of_find?_eq_some search)

theorem Body.build_suspensions_fork : ∃ function body,
    Source.fork.function.function? = some function ∧
    Body.build {} Source.fork.arity Source.fork.function = .ok body ∧
    function.body.payloads 2 = [(3, .reference "x" {}), (3, .int 2 {}), (3, .reference "x" {})] ∧
    List.Forall₂ (Node.Hands body.symbols) (body.graph.nodes.toList.filter Node.isSuspension)
      (function.body.payloads 2) ∧
    ∃ analysis machine, body.analyze {} = .ok analysis ∧
      (body.emit analysis {} "fork").1 = .ok machine ∧ machine.states ≠ [] ∧
      ∀ state ∈ machine.states, Emitted.allPlain state.statements = true := by
  have seen : ((Body.build {} Source.fork.arity Source.fork.function).bind fun body =>
      (body.analyze {}).bind fun analysis =>
        (body.emit analysis {} "fork").1.map fun machine => machine.states.isEmpty) =
          .ok false := by cbv
  obtain ⟨body, done, seen⟩ := ok_bind seen
  obtain ⟨analysis, analysed, seen⟩ := ok_bind seen
  obtain ⟨each, _, plain⟩ := (@Body.build_suspensions {} 2 Source.fork.function _ rfl).2 body done
  obtain ⟨_, machine, analysed', emits, plain⟩ := plain {} "fork"
  cases analysed.symm.trans analysed'
  rw [emits] at seen
  have some_ : machine.states ≠ [] := List.isEmpty_eq_false_iff.mp (Except.ok.inj seen)
  exact ⟨_, body, rfl, done, rfl, each, analysis, machine, analysed, emits, some_, plain⟩

end Resumable
