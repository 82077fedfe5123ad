import Resumable.Proofs.Lowering.Function

/-! A lowering fails only where the language rules the program out: no step asks for a node, a scope
or a variable that is not there. -/

namespace Resumable

open Symbols Lower

def Failure.Ruled (failure : Failure) : Prop := ∃ fault, failure.fault = .lowering fault

/-- A step that fails only where a rule of the language is broken. -/
def Ruled {σ α : Type} (run : StateT σ (Except Failure) α) (state : σ) : Prop :=
  ∀ failure, run state = .error failure → failure.Ruled

namespace Ruled

variable {σ α β : Type} {run : StateT σ (Except Failure) α}
  {next : α → StateT σ (Except Failure) β} {state : σ}

theorem of_ok {result : α × σ} (done : run state = .ok result) : Ruled run state := by
  intro failure failed
  cases failed.symm.trans done

theorem pure (a : α) (state : σ) : Ruled (Pure.pure a : StateT σ (Except Failure) α) state :=
  of_ok rfl

theorem bind (first : Ruled run state)
    (rest : ∀ a middle, run state = .ok (a, middle) → Ruled (next a) middle) :
    Ruled (run >>= next) state := by
  intro failure failed
  rcases failed_bind failed with here | ⟨⟨a, middle⟩, done, later⟩
  · exact first failure here
  · exact rest a middle done failure later

theorem check {check : Except Failure α}
    (first : ∀ failure, check = .error failure → failure.Ruled)
    (rest : ∀ a, check = .ok a → Ruled (next a) state) :
    Ruled ((liftM check : StateT σ (Except Failure) α) >>= next) state := by
  cases passed : check with
  | error failure =>
      intro found failed
      have same : failure = found := Except.error.inj failed
      exact same ▸ first failure passed
  | ok a => exact rest a passed

theorem get {next : σ → StateT σ (Except Failure) β} (rest : Ruled (next state) state) :
    Ruled (MonadState.get >>= next) state :=
  rest

end Ruled

section Names

variable {symbols : Symbols} {scope : ScopeId}

theorem Expr.requirePlain_ruled {e : Expr} {failure : Failure}
    (failed : e.requirePlain = .error failure) : failure.Ruled := by
  rw [requirePlain] at failed
  split at failed
  · cases failed
    exact ⟨_, rfl⟩
  · split at failed
    · cases failed
      exact ⟨_, rfl⟩
    · cases failed

theorem Symbols.requireType_ruled {e : Expr} {fits : DataType → Bool}
    {fault : DataType → LoweringFault} {failure : Failure}
    (failed : symbols.requireType scope e fits fault = .error failure) : failure.Ruled := by
  rw [requireType] at failed
  split at failed
  · cases failed
  · split at failed
    · cases failed
    · cases failed
      exact ⟨_, rfl⟩

theorem Symbols.rename_ruled (name : String) (location : Location) (found : List VarId) :
    Ruled (symbols.rename scope name location) found := by
  intro failure failed
  rw [rename] at failed
  split at failed
  · cases failed
  · cases failed
    exact ⟨_, rfl⟩

mutual

theorem Expr.mapReferences_ruled (e : Expr) (found : List VarId) :
    Ruled (e.mapReferences (symbols.rename scope)) found := by
  match e with
  | .literal .. | .function .. => exact .pure _ _
  | .reference name mark =>
      exact (Symbols.rename_ruled name mark.location found).bind fun _ _ _ => .pure _ _
  | .binary _ left right _ =>
      exact (left.mapReferences_ruled found).bind fun _ middle _ =>
        (right.mapReferences_ruled middle).bind fun _ _ _ => .pure _ _
  | .unary _ operand _ =>
      exact (operand.mapReferences_ruled found).bind fun _ _ _ => .pure _ _
  | .call _ args _ =>
      exact (Expr.mapAllReferences_ruled args found).bind fun _ _ _ => .pure _ _
  | .suspend payload _ =>
      exact (payload.mapReferences_ruled found).bind fun _ _ _ => .pure _ _

theorem Expr.mapAllReferences_ruled (es : List Expr) (found : List VarId) :
    Ruled (Expr.mapAllReferences (symbols.rename scope) es) found := by
  match es with
  | [] => exact .pure _ _
  | e :: rest =>
      exact (e.mapReferences_ruled found).bind fun _ middle _ =>
        (Expr.mapAllReferences_ruled rest middle).bind fun _ _ _ => .pure _ _

end

end Names

namespace Lower

variable {draft : Draft} {scope : Nat}

theorem resolve_ruled (e : Expr) (reads : List VarId) : Ruled (resolve scope e reads) draft := by
  intro failure failed
  rw [resolve] at failed
  split at failed
  · cases failed
  · rename_i found resolving
    cases failed
    exact Expr.mapReferences_ruled e [] _ resolving

theorem resolveTarget_ruled (name : String) (location : Location) (reads : List VarId) :
    Ruled (resolveTarget scope name location reads) draft := by
  refine Ruled.get (Ruled.check (fun failure failed => ?_) fun _ _ => .pure _ _)
  rw [Symbols.target] at failed
  split at failed
  · cases failed
    exact ⟨_, rfl⟩
  · split at failed
    · cases failed
    · cases failed
      exact ⟨_, rfl⟩

theorem declare_ruled (inside : scope < draft.symbols.scopes.size) (name : String)
    (type : DataType) (mutable parameter : Bool) (location : Location) :
    Ruled (declare scope name type mutable parameter location) draft := by
  intro failure failed
  obtain ⟨entry, there⟩ := ScopeChain.scope?_isSome inside
  rcases draft.symbols.declare_cases scope name type mutable parameter location with
    ⟨_, _, _, same⟩ | ⟨_, _, _, same⟩ | ⟨_, missing, _⟩
  · rw [declare, same] at failed
    cases failed
    exact ⟨_, rfl⟩
  · rw [declare, same] at failed
    cases failed
  · cases there.symm.trans missing

theorem connect_ruled {source target : Nat} (from_ : source < draft.graph.size)
    (to_ : target < draft.graph.size) : Ruled (connect source target) draft := by
  have node : ∀ id : Nat, id < draft.graph.size → ∃ node, draft.graph.node id = .ok node := by
    intro id below
    exact ⟨_, by rw [Graph.node, Graph.node?, Array.getElem?_eq_getElem below]⟩
  obtain ⟨first, there⟩ := node source from_
  obtain ⟨second, there'⟩ := node target to_
  have connected : ∃ graph, draft.graph.connect source target = .ok graph := by
    rw [Graph.connect, there, there']
    exact ⟨_, rfl⟩
  obtain ⟨graph, done⟩ := connected
  exact .of_ok (show connect source target draft = .ok ((), { draft with graph }) by
    rw [connect, done])

theorem size_connect {source target : NodeId} {after : Draft}
    (done : connect source target draft = .ok ((), after)) :
    after.graph.size = draft.graph.size :=
  Graph.size_connect (connect_ok done).1

theorem joinBranches_ruled {fork merge : Nat} {thenPiece elsePiece : Piece}
    (forks : fork < draft.graph.size) (meets : merge < draft.graph.size)
    (thenFirst : (thenPiece.first : Nat) < draft.graph.size)
    (thenLast : (thenPiece.last : Nat) < draft.graph.size)
    (elseFirst : (elsePiece.first : Nat) < draft.graph.size)
    (elseLast : (elsePiece.last : Nat) < draft.graph.size) :
    Ruled (joinBranches fork merge thenPiece elsePiece) draft := by
  refine (connect_ruled forks thenFirst).bind fun _ first done => ?_
  have size := size_connect done
  refine (connect_ruled (size ▸ forks) (size ▸ elseFirst)).bind fun _ second done' => ?_
  have size' := (size_connect done').trans size
  refine (connect_ruled (size' ▸ thenLast) (size' ▸ meets)).bind fun _ third done'' => ?_
  have size'' := (size_connect done'').trans size'
  exact (connect_ruled (size'' ▸ elseLast) (size'' ▸ meets)).bind fun _ _ _ => .pure _ _

theorem openBranch_ruled (condition : Expr) (location : Location) :
    Ruled (openBranch condition scope location) draft := by
  refine Ruled.check (fun _ => Expr.requirePlain_ruled) fun _ _ => ?_
  refine Ruled.get (Ruled.check (fun _ => Symbols.requireType_ruled) fun _ _ => ?_)
  exact (resolve_ruled condition []).bind fun _ _ _ => .of_ok rfl

theorem Lays.ends {before after : Draft} {piece : Piece} {route : Route}
    (lays : Lays scope before after piece route) :
    (piece.first : Nat) < after.graph.size ∧ (piece.last : Nat) < after.graph.size :=
  ⟨(lays.window _ (Route.mem_ids_of_first? lays.entry)).2,
    (lays.window _ (Route.mem_ids_of_last? lays.last)).2⟩

end Lower

section Whole

variable {draft : Draft} {scope : Nat}

theorem Lower.openScope_ruled {α : Type} {next : ScopeId → Lower α}
    (sound : draft.symbols.Sound) (inside : scope < draft.symbols.scopes.size)
    (rest : ∀ (child : Nat) (opened : Draft), Opened scope draft.symbols child opened.symbols →
      opened.graph = draft.graph → Ruled (next child) opened) :
    Ruled (openScope scope >>= next) draft := by
  refine (Ruled.of_ok rfl).bind fun child opened done => ?_
  obtain ⟨opening, graph⟩ := openScope_ok sound inside done
  exact rest child opened opening graph

theorem Lower.expression_ruled {α : Type} {next : Expr × List VarId → Lower α} (e : Expr)
    (reads : List VarId) (sound : draft.symbols.Sound)
    (rest : ∀ resolved middle, middle.symbols = draft.symbols → Ruled (next resolved) middle) :
    Ruled (do e.requirePlain; next (← resolve scope e reads)) draft := by
  refine Ruled.check (fun _ => Expr.requirePlain_ruled) fun _ _ => ?_
  refine (resolve_ruled e reads).bind fun resolved middle done => ?_
  exact rest resolved middle (resolve_ok sound done).2.1

mutual

theorem Stmt.resolveWhole_ruled (s : Stmt) {draft : Draft} {scope : Nat} (reads : List VarId)
    (sound : draft.symbols.Sound) (inside : scope < draft.symbols.scopes.size) :
    Ruled (s.resolveWhole scope reads) draft := by
  match s with
  | .declare name type mutable value location =>
      refine expression_ruled value reads sound fun _ middle symbols => ?_
      exact (declare_ruled (symbols ▸ inside) name type mutable false location).bind
        fun _ _ _ => .pure _ _
  | .assign target value location =>
      refine Ruled.check (fun _ => Expr.requirePlain_ruled) fun _ _ => ?_
      refine (resolveTarget_ruled target location reads).bind fun _ _ _ => ?_
      exact (resolve_ruled value _).bind fun _ _ _ => .pure _ _
  | .evaluate value location =>
      exact expression_ruled value reads sound fun _ _ _ => .pure _ _
  | .branch condition thenBranch none location =>
      refine expression_ruled condition reads sound fun _ middle symbols => ?_
      refine openScope_ruled (symbols ▸ sound) (symbols ▸ inside) fun child opened opening _ => ?_
      exact (thenBranch.resolveWhole_ruled _ opening.sound opening.inside).bind
        fun _ _ _ => .pure _ _
  | .branch condition thenBranch (some elseBranch) location =>
      refine expression_ruled condition reads sound fun _ middle symbols => ?_
      refine openScope_ruled (symbols ▸ sound) (symbols ▸ inside) fun child opened opening _ => ?_
      refine (thenBranch.resolveWhole_ruled _ opening.sound opening.inside).bind
        fun _ last done => ?_
      have grown := (thenBranch.resolveWhole_ok opening.sound opening.inside done).grown
      have inside' := Nat.lt_of_lt_of_le (symbols ▸ inside)
        (Nat.le_trans (opening.extends_ scope).sizes grown.extends_.sizes)
      refine openScope_ruled grown.sound inside' fun child' opened' opening' _ => ?_
      exact (elseBranch.resolveWhole_ruled _ opening'.sound opening'.inside).bind
        fun _ _ _ => .pure _ _
  | .block body location =>
      refine openScope_ruled sound inside fun child opened opening _ => ?_
      exact (Stmt.resolveAll_ruled body reads opening.sound opening.inside).bind
        fun _ _ _ => .pure _ _
  | .loop condition body location =>
      refine expression_ruled condition reads sound fun _ middle symbols => ?_
      refine openScope_ruled (symbols ▸ sound) (symbols ▸ inside) fun child opened opening _ => ?_
      exact (body.resolveWhole_ruled _ opening.sound opening.inside).bind fun _ _ _ => .pure _ _
  | .select scrutinee arms location =>
      refine expression_ruled scrutinee reads sound fun _ middle symbols => ?_
      exact (Arm.resolveAll_ruled arms _ (symbols ▸ sound) (symbols ▸ inside)).bind
        fun _ _ _ => .pure _ _
  | .attempt body handler location =>
      refine openScope_ruled sound inside fun child opened opening _ => ?_
      refine (body.resolveWhole_ruled reads opening.sound opening.inside).bind
        fun _ last done => ?_
      have grown := (body.resolveWhole_ok opening.sound opening.inside done).grown
      have inside' := Nat.lt_of_lt_of_le inside
        (Nat.le_trans (opening.extends_ scope).sizes grown.extends_.sizes)
      refine openScope_ruled grown.sound inside' fun child' opened' opening' _ => ?_
      exact (handler.resolveWhole_ruled _ opening'.sound opening'.inside).bind
        fun _ _ _ => .pure _ _

theorem Stmt.resolveAll_ruled (body : List Stmt) {draft : Draft} {scope : Nat}
    (reads : List VarId) (sound : draft.symbols.Sound)
    (inside : scope < draft.symbols.scopes.size) :
    Ruled (Stmt.resolveAll scope reads body) draft := by
  match body with
  | [] => exact .pure _ _
  | s :: rest =>
      refine (s.resolveWhole_ruled reads sound inside).bind fun _ middle done => ?_
      have grown := (s.resolveWhole_ok sound inside done).grown
      exact (Stmt.resolveAll_ruled rest _ grown.sound
        (Nat.lt_of_lt_of_le inside grown.extends_.sizes)).bind fun _ _ _ => .pure _ _

theorem Arm.resolveAll_ruled (arms : List Arm) {draft : Draft} {scope : Nat}
    (reads : List VarId) (sound : draft.symbols.Sound)
    (inside : scope < draft.symbols.scopes.size) :
    Ruled (Arm.resolveAll scope reads arms) draft := by
  match arms with
  | [] => exact .pure _ _
  | .mk none body :: rest =>
      refine openScope_ruled sound inside fun child opened opening _ => ?_
      refine (body.resolveWhole_ruled reads opening.sound opening.inside).bind
        fun _ last done => ?_
      have grown := (body.resolveWhole_ok opening.sound opening.inside done).grown
      have inside' := Nat.lt_of_lt_of_le inside
        (Nat.le_trans (opening.extends_ scope).sizes grown.extends_.sizes)
      exact (Arm.resolveAll_ruled rest _ grown.sound inside').bind fun _ _ _ => .pure _ _
  | .mk (some pattern) body :: rest =>
      refine expression_ruled pattern reads sound fun _ middle symbols => ?_
      refine openScope_ruled (symbols ▸ sound) (symbols ▸ inside) fun child opened opening _ => ?_
      refine (body.resolveWhole_ruled _ opening.sound opening.inside).bind fun _ last done => ?_
      have grown := (body.resolveWhole_ok opening.sound opening.inside done).grown
      have inside' := Nat.lt_of_lt_of_le (symbols ▸ inside)
        (Nat.le_trans (opening.extends_ scope).sizes grown.extends_.sizes)
      exact (Arm.resolveAll_ruled rest _ grown.sound inside').bind fun _ _ _ => .pure _ _

end

end Whole

section Bodies

variable {draft : Draft} {scope : Nat}

theorem Lower.suspension_ruled (context : LoweringContext) (payload : Expr) (location : Location) :
    Ruled (suspension context payload scope location) draft := by
  refine Ruled.check (fun _ => Expr.requirePlain_ruled) fun _ _ => ?_
  refine Ruled.get (Ruled.check (fun _ => Symbols.requireType_ruled) fun _ _ => ?_)
  exact (resolve_ruled payload []).bind fun _ _ _ => .of_ok rfl

theorem Lower.whole_ruled (context : LoweringContext) (construct : Construct) (s : Stmt)
    (sound : draft.symbols.Sound) (inside : scope < draft.symbols.scopes.size) :
    Ruled (whole context construct s scope) draft := by
  have refused : ∀ {α : Type} (fault : LoweringFault) (location : Location)
      (next : Unit → Lower α), Ruled (throw ⟨.lowering fault, location⟩ >>= next) draft := by
    intro _ fault location _ failure failed
    cases failed
    exact ⟨fault, rfl⟩
  rw [whole]
  split
  · exact refused _ _ _
  · split
    · exact refused _ _ _
    · refine (Ruled.of_ok rfl).bind fun _ warned done => ?_
      cases done
      refine Ruled.get ?_
      refine Ruled.bind (s.resolveWhole_ruled [] ?_ ?_) fun _ _ _ => .of_ok rfl
      · exact sound
      · exact inside

theorem Lower.branch_ruled {context : LoweringContext} {condition : Expr} {thenBranch : Stmt}
    {location : Location} {second : ScopeId → Lower Piece} (sound : draft.symbols.Sound)
    (open_ : Open scope draft.symbols)
    (ruled : ∀ {child : Nat} {opened : Draft}, opened.symbols.Sound → Open child opened.symbols →
      Ruled (thenBranch.lower context child) opened)
    (ruled' : ∀ {child : Nat} {opened : Draft}, opened.symbols.Sound → Open child opened.symbols →
      Ruled (second child) opened)
    (lays' : ∀ {child : Nat} {opened after : Draft} {piece : Piece}, opened.symbols.Sound →
      Open child opened.symbols → second child opened = .ok (piece, after) →
      ∃ route, Lays child opened after piece route) :
    Ruled (do
      let (fork, merge) ← openBranch condition scope location
      let thenScope ← openScope scope
      let thenPiece ← thenBranch.lower context thenScope
      let elseScope ← openScope scope
      let elsePiece ← second elseScope
      joinBranches fork merge thenPiece elsePiece) draft := by
  refine (openBranch_ruled condition location).bind fun ⟨fork, merge⟩ forks forking => ?_
  obtain ⟨condition', reads, forked⟩ := openBranch_ok sound forking
  have openFork := forked.open_ open_
  refine openScope_ruled (forked.sound sound) openFork.inside fun child opened opening graph => ?_
  have openThen := opening.open_ openFork
  refine (ruled opening.sound openThen).bind fun thenPiece thenDraft inThen => ?_
  obtain ⟨_, thenRoute, lowers⟩ := thenBranch.lower_ok context opening.sound openThen inThen
  have left := lowers.leave (forked.sound sound) openFork.inside opening graph
  have openMiddle := openFork.around left.extends_ (forked.sound sound) left.sound (Nat.le_refl _)
  refine openScope_ruled left.sound openMiddle.inside fun child' opened' opening' graph' => ?_
  have openElse := opening'.open_ openMiddle
  refine (ruled' opening'.sound openElse).bind fun elsePiece elseDraft inElse => ?_
  obtain ⟨elseRoute, lays⟩ := lays' opening'.sound openElse inElse
  have grows := left.lays.size
  have grows' := lays.size
  rw [graph'] at grows'
  have more := forked.size
  have ends := left.lays.ends
  have ends' := lays.ends
  have first := forked.forkId
  have last := forked.mergeId
  exact joinBranches_ruled (by omega) (by omega) (Nat.lt_of_lt_of_le ends.1 grows')
    (Nat.lt_of_lt_of_le ends.2 grows') ends'.1 ends'.2

mutual

theorem Stmt.lower_ruled (context : LoweringContext) (s : Stmt) {draft : Draft} {scope : Nat}
    (sound : draft.symbols.Sound) (open_ : Open scope draft.symbols) :
    Ruled (s.lower context scope) draft := by
  match s with
  | .declare name type mutable value location =>
      refine Ruled.check (fun _ => Expr.requirePlain_ruled) fun _ _ => ?_
      refine Ruled.get (Ruled.check (fun _ => Symbols.requireType_ruled) fun _ _ => ?_)
      refine (resolve_ruled value []).bind fun _ middle done => ?_
      have symbols := (resolve_ok sound done).2.1
      exact (declare_ruled (symbols ▸ open_.inside) name type mutable false location).bind
        fun _ _ _ => .of_ok rfl
  | .assign target value location =>
      refine Ruled.check (fun _ => Expr.requirePlain_ruled) fun _ _ => ?_
      refine (resolveTarget_ruled target location []).bind fun _ _ _ => ?_
      exact (resolve_ruled value _).bind fun _ _ _ => .of_ok rfl
  | .evaluate value location =>
      rw [Stmt.lower]
      split
      · exact suspension_ruled context _ location
      · refine Ruled.check (fun _ => Expr.requirePlain_ruled) fun _ _ => ?_
        exact (resolve_ruled value []).bind fun _ _ _ => .of_ok rfl
  | .branch condition thenBranch none location =>
      refine branch_ruled sound open_ (thenBranch.lower_ruled context) (fun _ _ => .of_ok rfl)
        fun sound' open' done => ?_
      obtain ⟨route, lowers⟩ := unitPiece_ok sound' open' done
      exact ⟨route, lowers.lays⟩
  | .branch condition thenBranch (some elseBranch) location =>
      refine branch_ruled sound open_ (thenBranch.lower_ruled context)
        (elseBranch.lower_ruled context) fun sound' open' done => ?_
      obtain ⟨_, route, lowers⟩ := elseBranch.lower_ok context sound' open' done
      exact ⟨route, lowers.lays⟩
  | .block body location => exact Stmt.lowerBlock_ruled context body location sound open_
  | .loop .. | .select .. | .attempt .. => exact whole_ruled context _ _ sound open_.inside

theorem Stmt.lowerBlock_ruled (context : LoweringContext) (body : List Stmt) (location : Location)
    {draft : Draft} {scope : Nat} (sound : draft.symbols.Sound) (open_ : Open scope draft.symbols) :
    Ruled (Stmt.lowerBlock context scope location body) draft := by
  match body with
  | [] => exact .of_ok rfl
  | [only] => exact only.lower_ruled context sound open_
  | first :: second :: rest =>
      refine openScope_ruled sound open_.inside fun child opened opening _ => ?_
      have openChild := opening.open_ open_
      refine (first.lower_ruled context opening.sound openChild).bind fun piece middle done => ?_
      obtain ⟨_, route, lowers⟩ := first.lower_ok context opening.sound openChild done
      exact (Stmt.lowerAfter_ruled context (second :: rest) lowers.grown.sound
        (lowers.grown.open_ opening.sound openChild) lowers.lays.ends.2).bind fun _ _ _ => .pure _ _

theorem Stmt.lowerAfter_ruled (context : LoweringContext) (rest : List Stmt) {draft : Draft}
    {scope last : Nat} (sound : draft.symbols.Sound) (open_ : Open scope draft.symbols)
    (there : last < draft.graph.size) :
    Ruled (Stmt.lowerAfter context scope last rest) draft := by
  match rest with
  | [] => exact .pure _ _
  | s :: rest =>
      refine (s.lower_ruled context sound open_).bind fun piece middle done => ?_
      obtain ⟨_, route, lowers⟩ := s.lower_ok context sound open_ done
      have ends := lowers.lays.ends
      have source := Nat.lt_of_lt_of_le there lowers.lays.size
      refine (connect_ruled source ends.1).bind fun _ linked link => ?_
      have symbols := (connect_ok link).2
      have size := size_connect link
      exact Stmt.lowerAfter_ruled context rest (symbols ▸ lowers.grown.sound)
        (symbols ▸ lowers.grown.open_ sound open_) (size ▸ ends.2)

end

theorem Lower.declareParams_ruled (params : List Parameter) {draft : Draft}
    (sound : draft.symbols.Sound) (open_ : Open ScopeChain.root draft.symbols) :
    Ruled (declareParams params) draft := by
  induction params generalizing draft with
  | nil => exact .pure _ _
  | cons param rest ih =>
      refine (declare_ruled open_.inside param.name param.type false true param.location).bind
        fun info middle done => ?_
      obtain ⟨declared, _⟩ := declare_ok sound done
      exact (ih declared.sound (declared.open_ open_)).bind fun _ _ _ => .pure _ _

theorem Lower.function_ruled (context : LoweringContext) (function : Function) :
    Ruled (Lower.function context function) {} := by
  refine (declareParams_ruled function.params initial_sound initial_open).bind
    fun params middle done => ?_
  obtain ⟨infos, _, declares⟩ :=
    declareParams_ok function.params initial_sound initial_open done
  exact (function.body.lower_ruled context declares.sound declares.open_).bind
    fun _ _ _ => .of_ok rfl

/-- A function literal that is refused breaks a rule. -/
theorem Body.build_ruled {settings : Settings} {arity : Nat} {e : Expr} {failure : Failure}
    (failed : Body.build settings arity e = .error failure) : failure.Ruled := by
  rw [Body.build] at failed
  split at failed
  · cases failed
    exact ⟨_, rfl⟩
  · split at failed
    · cases failed
      exact ⟨_, rfl⟩
    · rcases failed_bind failed with here | ⟨_, _, impossible⟩
      · exact Lower.function_ruled _ _ _ here
      · cases impossible

end Bodies
end Resumable
