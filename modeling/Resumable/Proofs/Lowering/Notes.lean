import Resumable.Proofs.Lowering.Pieces
import Resumable.Proofs.Program.Notes

/-! Lowering two programs that differ in nothing but type notes. Notes can make it fail, and where
neither of the two is refused they come to the same graph, but for notes in its fragments. -/

namespace Resumable

def NodeKind.bare : NodeKind → NodeKind
  | .branch condition join => .branch condition.bare join
  | .merge => .merge
  | .suspend payload => .suspend payload.bare
  | .statement s => .statement s.bare

def Node.bare (node : Node) : Node := { node with kind := node.kind.bare }

def Graph.bare (graph : Graph) : Graph := { graph with nodes := graph.nodes.map Node.bare }

def Draft.bare (draft : Draft) : Draft := { draft with graph := draft.graph.bare }

def Body.bare (body : Body) : Body := { body with graph := body.graph.bare }

namespace Graph

variable {graph graph' : Graph}

@[simp] theorem node?_bare (graph : Graph) (id : NodeId) :
    graph.bare.node? id = (graph.node? id).map Node.bare := by
  simp [node?, bare]

@[simp] theorem size_bare (graph : Graph) : graph.bare.size = graph.size := by
  simp [size, bare]

theorem bare_push (graph : Graph) (node : Node) :
    (graph.push node).bare = graph.bare.push node.bare := by
  simp [push, bare]

theorem bare_modify (graph : Graph) (id : NodeId) {change : Node → Node}
    (same : ∀ node, (change node).bare = change node.bare) :
    (graph.modify id change).bare = graph.bare.modify id change := by
  have nodes : (graph.nodes.modify id change).map Node.bare =
      (graph.nodes.map Node.bare).modify id change := by
    apply Array.ext_getElem?
    intro other
    simp only [Array.getElem?_map, Array.getElem?_modify]
    split
    · cases graph.nodes[other]? with
      | none => rfl
      | some node => exact congrArg some (same node)
    · rfl
  exact congrArg (Graph.mk · graph.head) nodes

theorem bare_connect {source target : NodeId}
    (connected : graph.connect source target = .ok graph') :
    graph'.bare = graph.bare.modify source fun node =>
      { node with successors := node.successors ++ [target] } := by
  rw [connect_eq connected]
  exact graph.bare_modify source fun _ => rfl

end Graph

theorem Draft.bare_eq {draft draft' : Draft} : draft.bare = draft'.bare ↔
    draft.graph.bare = draft'.graph.bare ∧ draft.symbols = draft'.symbols ∧
      draft.warnings = draft'.warnings ∧ draft.used = draft'.used := by
  rw [bare, bare, Draft.mk.injEq]

namespace Lower

/-- Two steps that do the same but for notes: where both succeed, from drafts that are equal but for
notes, they come to related answers and to such drafts again. -/
structure Agree {α β : Type} (R : α → β → Prop) (step : Lower α) (other : Lower β) : Prop where
  ends : ∀ {before before' a a' after after'}, before.bare = before'.bare →
    step before = .ok (a, after) → other before' = .ok (a', after') →
      R a a' ∧ after.bare = after'.bare

def Same {α : Type} (bare : α → α) (found found' : α × List VarId) : Prop :=
  bare found.1 = bare found'.1 ∧ found.2 = found'.2

variable {α β γ δ : Type} {R : α → β → Prop} {S : γ → δ → Prop} {step : Lower α} {other : Lower β}
  {next : α → Lower γ} {next' : β → Lower δ}

namespace Agree

theorem seq (first : Agree R step other) (rest : ∀ a b, R a b → Agree S (next a) (next' b)) :
    Agree S (step >>= next) (other >>= next') := by
  refine ⟨fun same done done' => ?_⟩
  obtain ⟨a, middle, early, late⟩ := bind_ok done
  obtain ⟨a', middle', early', late'⟩ := bind_ok done'
  obtain ⟨related, same⟩ := first.ends same early early'
  exact (rest a a' related).ends same late late'

theorem then_ {step other : Lower α} {next : α → Lower γ} {next' : α → Lower δ}
    (first : Agree Eq step other) (rest : ∀ a, Agree S (next a) (next' a)) :
    Agree S (step >>= next) (other >>= next') := by
  refine first.seq fun a b same => ?_
  subst same
  exact rest a

theorem found {bare : α → α} {step other : Lower (α × List VarId)}
    {next : α × List VarId → Lower γ} {next' : α × List VarId → Lower δ}
    (first : Agree (Same bare) step other)
    (rest : ∀ a a' reads, bare a = bare a' → Agree S (next (a, reads)) (next' (a', reads))) :
    Agree S (step >>= next) (other >>= next') := by
  refine first.seq fun found found' same => ?_
  obtain ⟨a, reads⟩ := found
  obtain ⟨a', reads'⟩ := found'
  obtain ⟨equal, rfl⟩ : bare a = bare a' ∧ reads = reads' := same
  exact rest a a' reads equal

theorem check {test test' : Except Failure α} {next : α → Lower γ} {next' : α → Lower δ}
    (rest : ∀ a a', Agree S (next a) (next' a')) :
    Agree S (liftM test >>= next) (liftM test' >>= next') := by
  refine ⟨fun same done done' => ?_⟩
  obtain ⟨a, _, late⟩ := check_ok done
  obtain ⟨a', _, late'⟩ := check_ok done'
  exact (rest a a').ends same late late'

theorem get : Agree (fun before before' => before.bare = before'.bare)
    (MonadState.get : Lower Draft) MonadState.get := by
  refine ⟨fun same done done' => ?_⟩
  cases done
  cases done'
  exact ⟨same, same⟩

theorem typed {test test' : Draft → Except Failure Unit} {next : Lower γ} {next' : Lower δ}
    (rest : Agree S next next') :
    Agree S (MonadState.get >>= fun draft => liftM (test draft) >>= fun _ => next)
      (MonadState.get >>= fun draft => liftM (test' draft) >>= fun _ => next') :=
  get.seq fun _ _ _ => check fun _ _ => rest

theorem lift (test : Except Failure α) : Agree Eq (liftM test : Lower α) (liftM test) := by
  refine ⟨fun same done done' => ?_⟩
  obtain ⟨passed, rfl⟩ := lift_ok done
  obtain ⟨passed', rfl⟩ := lift_ok done'
  exact ⟨Except.ok.inj (passed.symm.trans passed'), same⟩

theorem pure {a : α} {b : β} (related : R a b) : Agree R (Pure.pure a) (Pure.pure b) := by
  refine ⟨fun same done done' => ?_⟩
  obtain ⟨rfl, rfl⟩ := pure_ok done
  obtain ⟨rfl, rfl⟩ := pure_ok done'
  exact ⟨related, same⟩

theorem throw (failure : Failure) (next : α → Lower γ) {other : Lower δ} :
    Agree S (MonadExcept.throw failure >>= next) other :=
  ⟨fun _ done _ => by cases done⟩

theorem throw_other (failure : Failure) (next : α → Lower δ) {step : Lower γ} :
    Agree S step (MonadExcept.throw failure >>= next) :=
  ⟨fun _ _ done => by cases done⟩

end Agree

section Steps

theorem openScope_agree (scope : ScopeId) : Agree Eq (openScope scope) (openScope scope) := by
  refine ⟨fun same done done' => ?_⟩
  obtain ⟨graph, symbols, warnings, used⟩ := Draft.bare_eq.mp same
  cases done
  cases done'
  rw [symbols, Draft.bare_eq]
  exact ⟨rfl, graph, rfl, warnings, used⟩

theorem declare_agree (scope : ScopeId) (name : String) (type : DataType) (mutable parameter : Bool)
    (location : Location) : Agree Eq (declare scope name type mutable parameter location)
      (declare scope name type mutable parameter location) := by
  refine ⟨fun {before before' _ _ _ _} same done done' => ?_⟩
  obtain ⟨graph, symbols, warnings, used⟩ := Draft.bare_eq.mp same
  unfold declare at done done'
  rw [← symbols] at done'
  rcases outcome : before.symbols.declare scope name type mutable parameter location with
    ⟨_ | info, after⟩
  · simp [outcome] at done
  · rw [outcome] at done done'
    cases done
    cases done'
    exact ⟨rfl, Draft.bare_eq.mpr ⟨graph, rfl, warnings, used⟩⟩

theorem warn_agree (cause : WarningCause) (location : Location) :
    Agree Eq (warn cause location) (warn cause location) := by
  refine ⟨fun same done done' => ?_⟩
  obtain ⟨graph, symbols, warnings, used⟩ := Draft.bare_eq.mp same
  cases done
  cases done'
  exact ⟨rfl, Draft.bare_eq.mpr ⟨graph, symbols, congrArg (· ++ _) warnings, used⟩⟩

theorem connect_agree (source target : NodeId) :
    Agree Eq (connect source target) (connect source target) := by
  refine ⟨fun {before before' _ _ _ _} same done done' => ?_⟩
  obtain ⟨graph, symbols, warnings, used⟩ := Draft.bare_eq.mp same
  unfold connect at done done'
  cases connected : before.graph.connect source target with
  | error => simp [connected] at done
  | ok first =>
      cases connected' : before'.graph.connect source target with
      | error => simp [connected'] at done'
      | ok second =>
          rw [connected] at done
          rw [connected'] at done'
          cases done
          cases done'
          refine ⟨rfl, Draft.bare_eq.mpr ⟨?_, symbols, warnings, used⟩⟩
          rw [Graph.bare_connect connected, Graph.bare_connect connected', graph]

theorem addNode_agree {kind kind' : NodeKind} (same : kind.bare = kind'.bare) (scope : ScopeId)
    (location : Location) (reads : List VarId) (declares : Option VarId) :
    Agree Eq (addNode kind scope location reads declares)
      (addNode kind' scope location reads declares) := by
  refine ⟨fun {before before' _ _ _ _} equal done done' => ?_⟩
  obtain ⟨graph, symbols, warnings, used⟩ := Draft.bare_eq.mp equal
  have size : before.graph.size = before'.graph.size := by
    rw [← Graph.size_bare, graph, Graph.size_bare]
  cases done
  cases done'
  rw [symbols, size, Draft.bare_eq]
  refine ⟨rfl, ?_, rfl, warnings, used⟩
  rw [Graph.bare_push, Graph.bare_push, graph, Node.bare, Node.bare, same]

theorem resolveExpr_bare (symbols : Symbols) (scope : ScopeId) (e : Expr) :
    symbols.resolveExpr scope e.bare =
      (symbols.resolveExpr scope e).map fun found => (found.1.bare, found.2) := by
  rw [Symbols.resolveExpr, Symbols.resolveExpr, Expr.mapReferences_bare, StateT.run_map]
  rfl

theorem resolve_agree {e e' : Expr} (same : e.bare = e'.bare) (scope : ScopeId)
    (reads : List VarId) :
    Agree (Same Expr.bare) (resolve scope e reads) (resolve scope e' reads) := by
  refine ⟨fun {before before' _ _ _ _} equal done done' => ?_⟩
  obtain ⟨graph, symbols, warnings, used⟩ := Draft.bare_eq.mp equal
  have both : (before.symbols.resolveExpr scope e).map (fun found => (found.1.bare, found.2)) =
      (before.symbols.resolveExpr scope e').map fun found => (found.1.bare, found.2) :=
    calc (before.symbols.resolveExpr scope e).map fun found => (found.1.bare, found.2)
      _ = before.symbols.resolveExpr scope e.bare := (resolveExpr_bare _ scope e).symm
      _ = before.symbols.resolveExpr scope e'.bare := by rw [same]
      _ = _ := resolveExpr_bare _ scope e'
  unfold resolve at done done'
  rw [← symbols] at done'
  cases resolved : before.symbols.resolveExpr scope e with
  | error => simp [resolved] at done
  | ok found =>
      cases resolved' : before.symbols.resolveExpr scope e' with
      | error => simp [resolved'] at done'
      | ok found' =>
          rw [resolved] at done both
          rw [resolved'] at done' both
          obtain ⟨parts, refs⟩ := Prod.mk.inj (Except.ok.inj both)
          cases done
          cases done'
          rw [refs, used]
          exact ⟨⟨parts, rfl⟩, Draft.bare_eq.mpr ⟨graph, rfl, warnings, rfl⟩⟩

theorem resolveTarget_agree (scope : ScopeId) (name : String) (location : Location)
    (reads : List VarId) : Agree Eq (resolveTarget scope name location reads)
      (resolveTarget scope name location reads) := by
  refine Agree.get.seq fun before before' same => ?_
  rw [(Draft.bare_eq.mp same).2.1]
  exact (Agree.lift _).then_ fun _ => .pure rfl

theorem plain_agree {e e' : Expr} {next : Expr × List VarId → Lower γ}
    {next' : Expr × List VarId → Lower δ} (same : e.bare = e'.bare) (scope : ScopeId)
    (reads : List VarId) (rest : ∀ resolved resolved' found, resolved.bare = resolved'.bare →
      Agree S (next (resolved, found)) (next' (resolved', found))) :
    Agree S (do e.requirePlain; next (← resolve scope e reads))
      (do e'.requirePlain; next' (← resolve scope e' reads)) :=
  Agree.check fun _ _ => (resolve_agree same scope reads).found rest

theorem enter_agree {next : ScopeId → Lower γ} {next' : ScopeId → Lower δ} (scope : ScopeId)
    (rest : ∀ child, Agree S (next child) (next' child)) :
    Agree S (openScope scope >>= next) (openScope scope >>= next') :=
  (openScope_agree scope).then_ rest

end Steps

end Lower

open Lower

section Whole

mutual

theorem Stmt.resolveWhole_agree (s : Stmt) {t : Stmt} (same : s.bare = t.bare) (scope : ScopeId)
    (reads : List VarId) :
    Agree (Same Stmt.bare) (s.resolveWhole scope reads) (t.resolveWhole scope reads) := by
  have alike := Stmt.alike_of_bare same
  match s with
  | .declare name type mutable value location =>
      cases alike with
      | declare value =>
          exact plain_agree value scope reads fun _ _ _ value =>
            (declare_agree ..).then_ fun info => .pure ⟨by simp only [Stmt.bare, value], rfl⟩
  | .assign target value location =>
      cases alike with
      | assign value =>
          exact .check fun _ _ => (resolveTarget_agree ..).then_ fun found =>
            (resolve_agree value ..).found fun _ _ _ value =>
              .pure ⟨by simp only [Stmt.bare, value], rfl⟩
  | .evaluate value location =>
      cases alike with
      | evaluate value =>
          exact plain_agree value scope reads fun _ _ _ value =>
            .pure ⟨by simp only [Stmt.bare, value], rfl⟩
  | .branch condition thenBranch none location =>
      cases alike with
      | skip test inThen =>
          exact plain_agree test scope reads fun _ _ _ test => enter_agree scope fun child =>
            (thenBranch.resolveWhole_agree inThen ..).found fun _ _ _ inThen =>
              .pure ⟨by simp only [Stmt.bare, test, inThen], rfl⟩
  | .branch condition thenBranch (some elseBranch) location =>
      cases alike with
      | branch test inThen inElse =>
          exact plain_agree test scope reads fun _ _ _ test => enter_agree scope fun child =>
            (thenBranch.resolveWhole_agree inThen ..).found fun _ _ _ inThen =>
            enter_agree scope fun child =>
            (elseBranch.resolveWhole_agree inElse ..).found fun _ _ _ inElse =>
              .pure ⟨by simp only [Stmt.bare, test, inThen, inElse], rfl⟩
  | .block body location =>
      cases alike with
      | block inside =>
          exact enter_agree scope fun child =>
            (Stmt.resolveAll_agree body inside ..).found fun _ _ _ inside =>
              .pure ⟨by simp only [Stmt.bare, inside], rfl⟩
  | .loop condition body location =>
      cases alike with
      | loop test inside =>
          exact plain_agree test scope reads fun _ _ _ test => enter_agree scope fun child =>
            (body.resolveWhole_agree inside ..).found fun _ _ _ inside =>
              .pure ⟨by simp only [Stmt.bare, test, inside], rfl⟩
  | .select scrutinee arms location =>
      cases alike with
      | select test inside =>
          exact plain_agree test scope reads fun _ _ _ test =>
            (Arm.resolveAll_agree arms inside ..).found fun _ _ _ inside =>
              .pure ⟨by simp only [Stmt.bare, test, inside], rfl⟩
  | .attempt body handler location =>
      cases alike with
      | attempt inBody inHandler =>
          exact enter_agree scope fun child =>
            (body.resolveWhole_agree inBody ..).found fun _ _ _ inBody =>
            enter_agree scope fun child =>
            (handler.resolveWhole_agree inHandler ..).found fun _ _ _ inHandler =>
              .pure ⟨by simp only [Stmt.bare, inBody, inHandler], rfl⟩

theorem Stmt.resolveAll_agree (body : List Stmt) {body' : List Stmt}
    (same : Stmt.bareAll body = Stmt.bareAll body') (scope : ScopeId) (reads : List VarId) :
    Agree (Same Stmt.bareAll) (Stmt.resolveAll scope reads body)
      (Stmt.resolveAll scope reads body') := by
  match body with
  | [] =>
      obtain rfl := Stmt.bareAll_nil same
      exact .pure ⟨rfl, rfl⟩
  | s :: rest =>
      obtain ⟨t, others, rfl, first, behind⟩ := Stmt.bareAll_cons same
      exact (s.resolveWhole_agree first ..).found fun _ _ _ first =>
        (Stmt.resolveAll_agree rest behind ..).found fun _ _ _ behind =>
          .pure ⟨by simp only [Stmt.bareAll, first, behind], rfl⟩

theorem Arm.resolveAll_agree (arms : List Arm) {arms' : List Arm}
    (same : Arm.bareAll arms = Arm.bareAll arms') (scope : ScopeId) (reads : List VarId) :
    Agree (Same Arm.bareAll) (Arm.resolveAll scope reads arms)
      (Arm.resolveAll scope reads arms') := by
  match arms with
  | [] =>
      obtain rfl := Arm.bareAll_nil same
      exact .pure ⟨rfl, rfl⟩
  | .mk none body :: rest =>
      obtain ⟨body', others, rfl, inside, behind⟩ := Arm.bareAll_cons_none same
      exact enter_agree scope fun child => (body.resolveWhole_agree inside ..).found
        fun _ _ _ inside => (Arm.resolveAll_agree rest behind ..).found fun _ _ _ behind =>
          .pure ⟨by simp only [Arm.bareAll, inside, behind], rfl⟩
  | .mk (some pattern) body :: rest =>
      obtain ⟨pattern', body', others, rfl, test, inside, behind⟩ := Arm.bareAll_cons_some same
      exact plain_agree test scope reads fun _ _ _ test => enter_agree scope fun child =>
        (body.resolveWhole_agree inside ..).found fun _ _ _ inside =>
        (Arm.resolveAll_agree rest behind ..).found fun _ _ _ behind =>
          .pure ⟨by simp only [Arm.bareAll, test, inside, behind], rfl⟩

end

end Whole

section Body

variable (context : LoweringContext)

namespace Lower

theorem statementPiece_agree {s t : Stmt} (same : s.bare = t.bare) (scope : ScopeId)
    (reads : List VarId) (declares : Option VarId) :
    Agree Eq (statementPiece s scope reads declares) (statementPiece t scope reads declares) := by
  have place : s.location = t.location := Stmt.location_of_bare same
  rw [statementPiece, statementPiece, place]
  exact (@addNode_agree (.statement s) (.statement t) (congrArg NodeKind.statement same)
    ..).then_ fun _ => .pure rfl

theorem suspension_agree {payload payload' : Expr} (same : payload.bare = payload'.bare)
    (scope : ScopeId) (location : Location) : Agree Eq (suspension context payload scope location)
      (suspension context payload' scope location) :=
  .check fun _ _ => .typed ((resolve_agree same scope []).found fun e e' _ same =>
    (@addNode_agree (.suspend e) (.suspend e') (congrArg NodeKind.suspend same) ..).then_ fun _ =>
    .pure rfl)

theorem openBranch_agree {condition condition' : Expr} (same : condition.bare = condition'.bare)
    (scope : ScopeId) (location : Location) : Agree Eq (openBranch condition scope location)
      (openBranch condition' scope location) :=
  .check fun _ _ => .typed ((resolve_agree same scope []).found fun e e' _ same =>
    (addNode_agree rfl ..).then_ fun merge =>
    (@addNode_agree (.branch e merge) (.branch e' merge) (congrArg (NodeKind.branch · merge) same)
      ..).then_ fun _ => .pure rfl)

theorem joinBranches_agree (fork merge : NodeId) (thenPiece elsePiece : Piece) :
    Agree Eq (joinBranches fork merge thenPiece elsePiece)
      (joinBranches fork merge thenPiece elsePiece) :=
  (connect_agree ..).then_ fun _ => (connect_agree ..).then_ fun _ =>
    (connect_agree ..).then_ fun _ => (connect_agree ..).then_ fun _ => .pure rfl

theorem whole_agree (construct : Construct) {s t : Stmt} (same : s.bare = t.bare)
    (scope : ScopeId) : Agree Eq (whole context construct s scope)
      (whole context construct t scope) := by
  have place : s.location = t.location := Stmt.location_of_bare same
  rw [whole, whole, place]
  by_cases inside : s.suspends = true
  · rw [if_pos inside]
    exact .throw _ _
  · by_cases inside' : t.suspends = true
    · rw [if_pos inside']
      exact .throw_other _ _
    · rw [if_neg inside, if_neg inside']
      split
      · exact .throw _ _
      · refine (warn_agree ..).then_ fun _ => Agree.get.seq fun before before' equal => ?_
        rw [(Draft.bare_eq.mp equal).2.1]
        exact (s.resolveWhole_agree same scope []).found fun _ _ _ same =>
          statementPiece_agree same ..

end Lower

mutual

theorem Stmt.lower_agree (s : Stmt) {t : Stmt} (same : s.bare = t.bare) (scope : ScopeId) :
    Agree Eq (s.lower context scope) (t.lower context scope) := by
  have alike := Stmt.alike_of_bare same
  match s with
  | .declare name type mutable value location =>
      cases alike with
      | declare value =>
          exact .check fun _ _ => .typed ((resolve_agree value ..).found fun _ _ _ value =>
            (declare_agree ..).then_ fun info =>
              statementPiece_agree (by simp only [Stmt.bare, value]) ..)
  | .assign target value location =>
      cases alike with
      | assign value =>
          exact .check fun _ _ => (resolveTarget_agree ..).then_ fun found =>
            (resolve_agree value ..).found fun _ _ _ value =>
              statementPiece_agree (by simp only [Stmt.bare, value]) ..
  | .evaluate value location =>
      cases alike with
      | @evaluate _ value' _ value_ =>
          have payloads : value.payload?.map Expr.bare = value'.payload?.map Expr.bare :=
            calc value.payload?.map Expr.bare
              _ = value.bare.payload? := value.payload?_bare.symm
              _ = value'.bare.payload? := by rw [value_]
              _ = value'.payload?.map Expr.bare := value'.payload?_bare
          rw [Stmt.lower, Stmt.lower]
          cases given : value.payload? with
          | none =>
              rw [given] at payloads
              rw [Option.map_eq_none_iff.mp payloads.symm]
              exact plain_agree value_ scope [] fun _ _ _ value_ =>
                statementPiece_agree (by simp only [Stmt.bare, value_]) ..
          | some payload =>
              rw [given] at payloads
              obtain ⟨payload', given', equal⟩ := Option.map_eq_some_iff.mp payloads.symm
              rw [given']
              exact suspension_agree context equal.symm scope location
  | .branch condition thenBranch none location =>
      cases alike with
      | skip test inThen =>
          exact (openBranch_agree test ..).then_ fun _ => enter_agree scope fun child =>
            (thenBranch.lower_agree inThen child).then_ fun _ => enter_agree scope fun child =>
            (statementPiece_agree rfl ..).then_ fun _ => joinBranches_agree ..
  | .branch condition thenBranch (some elseBranch) location =>
      cases alike with
      | branch test inThen inElse =>
          exact (openBranch_agree test ..).then_ fun _ => enter_agree scope fun child =>
            (thenBranch.lower_agree inThen child).then_ fun _ => enter_agree scope fun child =>
            (elseBranch.lower_agree inElse child).then_ fun _ => joinBranches_agree ..
  | .block body location =>
      cases alike with
      | block inside => exact Stmt.lowerBlock_agree body inside scope location
  | .loop .. | .select .. | .attempt .. =>
      cases alike
      exact whole_agree context _ same scope

theorem Stmt.lowerBlock_agree (body : List Stmt) {body' : List Stmt}
    (same : Stmt.bareAll body = Stmt.bareAll body') (scope : ScopeId) (location : Location) :
    Agree Eq (Stmt.lowerBlock context scope location body)
      (Stmt.lowerBlock context scope location body') := by
  match body with
  | [] =>
      obtain rfl := Stmt.bareAll_nil same
      exact statementPiece_agree rfl ..
  | [only] =>
      obtain ⟨only', others, rfl, first, behind⟩ := Stmt.bareAll_cons same
      obtain rfl := Stmt.bareAll_nil behind
      exact only.lower_agree first scope
  | first :: second :: rest =>
      obtain ⟨first', others, rfl, head, behind⟩ := Stmt.bareAll_cons same
      obtain ⟨second', others, rfl, next, last⟩ := Stmt.bareAll_cons behind
      exact enter_agree scope fun child => (first.lower_agree head child).then_ fun _ =>
        (Stmt.lowerAfter_agree (second :: rest) behind ..).then_ fun _ => .pure rfl

theorem Stmt.lowerAfter_agree (rest : List Stmt) {rest' : List Stmt}
    (same : Stmt.bareAll rest = Stmt.bareAll rest') (scope : ScopeId) (last : NodeId) :
    Agree Eq (Stmt.lowerAfter context scope last rest)
      (Stmt.lowerAfter context scope last rest') := by
  match rest with
  | [] =>
      obtain rfl := Stmt.bareAll_nil same
      exact .pure rfl
  | s :: rest =>
      obtain ⟨t, others, rfl, first, behind⟩ := Stmt.bareAll_cons same
      exact (s.lower_agree first scope).then_ fun _ => (connect_agree ..).then_ fun _ =>
        Stmt.lowerAfter_agree rest behind ..

end

theorem Lower.declareParams_agree (params : List Parameter) :
    Agree Eq (declareParams params) (declareParams params) := by
  induction params with
  | nil => exact .pure rfl
  | cons param rest ih => exact (declare_agree ..).then_ fun _ => ih.then_ fun _ => .pure rfl

theorem Lower.function_agree {function function' : Function} (same : function.bare = function'.bare) :
    Agree Eq (Lower.function context function) (Lower.function context function') := by
  obtain ⟨params, _, inside⟩ := Function.mk.inj same
  rw [Lower.function, Lower.function, params]
  refine (declareParams_agree _).then_ fun _ => (Stmt.lower_agree context _ inside _).then_
    fun piece => ?_
  refine Agree.then_ ⟨fun equal done done' => ?_⟩ fun _ => .pure rfl
  obtain ⟨graph, symbols, warnings, used⟩ := Draft.bare_eq.mp equal
  cases done
  cases done'
  refine ⟨rfl, Draft.bare_eq.mpr ⟨?_, symbols, warnings, used⟩⟩
  exact congrArg (fun bare : Graph => { bare with head := some piece.first }) graph

end Body

/-- Where two function literals that are equal but for notes are both accepted, the bodies they are
lowered to are equal but for notes. -/
theorem Body.build_bare {settings : Settings} {arity : Nat} {e e' : Expr} {body body' : Body}
    (same : e.bare = e'.bare) (done : Body.build settings arity e = .ok body)
    (done' : Body.build settings arity e' = .ok body') : body.bare = body'.bare := by
  have literals : e.function?.map Function.bare = e'.function?.map Function.bare :=
    calc e.function?.map Function.bare
      _ = e.bare.function? := e.function?_bare.symm
      _ = e'.bare.function? := by rw [same]
      _ = e'.function?.map Function.bare := e'.function?_bare
  unfold Body.build at done done'
  cases given : e.function? with
  | none => simp [given] at done
  | some function =>
      rw [given] at literals
      obtain ⟨function', given', equal⟩ := Option.map_eq_some_iff.mp literals.symm
      simp only [given] at done
      simp only [given'] at done'
      split at done
      · cases done
      · split at done'
        · cases done'
        · obtain ⟨⟨params, draft⟩, lowering, done⟩ := ok_bind done
          obtain ⟨⟨params', draft'⟩, lowering', done'⟩ := ok_bind done'
          obtain ⟨_, yieldType, _⟩ := Function.mk.inj equal
          rw [show function'.yieldType = function.yieldType from yieldType] at lowering' done'
          obtain ⟨rfl, drafts⟩ :=
            (Lower.function_agree _ equal.symm).ends rfl lowering lowering'
          obtain ⟨graph, symbols, warnings, used⟩ := Draft.bare_eq.mp drafts
          cases done
          cases done'
          rw [Body.bare, Body.bare, Body.mk.injEq]
          refine ⟨graph, symbols, rfl, rfl, ?_⟩
          rw [warnings, Lower.unusedWarnings, Lower.unusedWarnings, symbols, used]

end Resumable
