import Resumable.Proofs.Lowering.Pieces

/-! What every step of a lowering does to a draft is done by the whole of it. Two cases of that: the
uids of nodes, and how many variables there are. -/

namespace Resumable

open Lower

/-- Wherever a step succeeds, it changes the draft in the given way while it declares `count`
variables. -/
structure Lower.Does {α : Type} (R : Nat → Draft → Draft → Prop) (count : Nat) (step : Lower α) :
    Prop where
  changes : ∀ before a after, step before = .ok (a, after) → R count before after

/-- A way to change drafts that is made up of steps. -/
structure Draft.Gradual (R : Nat → Draft → Draft → Prop) : Prop where
  refl : ∀ draft, R 0 draft draft
  trans : ∀ {count more first middle last}, R count first middle → R more middle last →
    R (count + more) first last

/-- A way to change drafts that allows to resolve names. -/
structure Draft.Resolving (R : Nat → Draft → Draft → Prop) : Prop extends Draft.Gradual R where
  opens : ∀ outer, Does R 0 (openScope outer)
  declares : ∀ scope name type mutable parameter location,
    Does R 1 (declare scope name type mutable parameter location)
  resolves : ∀ scope e reads, Does R 0 (resolve scope e reads)

/-- A way to change drafts that allows to make nodes and edges too. -/
structure Draft.Building (R : Nat → Draft → Draft → Prop) : Prop extends Draft.Resolving R where
  warns : ∀ cause location, Does R 0 (warn cause location)
  adds : ∀ kind scope location reads declares,
    Does R 0 (addNode kind scope location reads declares)
  connects : ∀ source target, Does R 0 (connect source target)

/-- A way to change drafts that allows all that a statement is lowered by. -/
structure Draft.Lowering (R : Nat → Draft → Draft → Prop) (context : LoweringContext) : Prop extends
    Draft.Resolving R where
  warns : ∀ cause location, Does R 0 (warn cause location)
  connects : ∀ source target, Does R 0 (connect source target)
  places : ∀ s scope reads, Does R 0 (statementPiece s scope reads none)
  suspends : ∀ payload scope location, Does R 0 (suspension context payload scope location)
  forks : ∀ condition scope location, Does R 0 (openBranch condition scope location)
  declaration : ∀ name type mutable value location scope,
    Does R 1 ((Stmt.declare name type mutable value location).lower context scope)

variable {R : Nat → Draft → Draft → Prop} {α β : Type} {step : Lower α} {next : α → Lower β}
  {count more : Nat}

namespace Draft.Gradual

variable (gradual : Draft.Gradual R)
include gradual

theorem seq (first : Does R count step) (rest : ∀ a, Does R more (next a)) :
    Does R (count + more) (step >>= next) := by
  refine ⟨fun before b after done => ?_⟩
  obtain ⟨a, middle, early, late⟩ := bind_ok done
  exact gradual.trans (first.changes before a middle early) ((rest a).changes middle b after late)

theorem then_ (first : Does R 0 step) (rest : ∀ a, Does R count (next a)) :
    Does R count (step >>= next) :=
  Nat.zero_add count ▸ gradual.seq first rest

theorem idle (same : ∀ before a after, step before = .ok (a, after) → after = before) :
    Does R 0 step :=
  ⟨fun before a after done => same before a after done ▸ gradual.refl before⟩

theorem pure (a : α) : Does R 0 (Pure.pure a) := gradual.idle fun _ _ _ done => (pure_ok done).2

theorem check (check : Except Failure α) : Does R 0 (liftM check) :=
  gradual.idle fun _ _ _ done => (lift_ok done).2

theorem get : Does R 0 (MonadState.get : Lower Draft) := gradual.idle fun _ _ _ done => by
  cases done
  rfl

theorem last (first : Does R count step) (answer : α → β) :
    Does R count (step >>= fun a => Pure.pure (answer a)) :=
  gradual.seq first fun _ => gradual.pure _

theorem target (scope : ScopeId) (name : String) (location : Location) (reads : List VarId) :
    Does R 0 (resolveTarget scope name location reads) :=
  gradual.then_ gradual.get fun _ => gradual.then_ (gradual.check _) fun _ => gradual.pure _

theorem joins (connects : ∀ source target, Does R 0 (connect source target)) (fork merge : NodeId)
    (thenPiece elsePiece : Piece) : Does R 0 (joinBranches fork merge thenPiece elsePiece) :=
  gradual.then_ (connects ..) fun _ => gradual.then_ (connects ..) fun _ =>
    gradual.then_ (connects ..) fun _ => gradual.last (connects ..) _

end Draft.Gradual

theorem Lower.Does.throw (failure : Failure) (next : α → Lower β) :
    Does R count (MonadExcept.throw failure >>= next) :=
  ⟨fun _ _ _ done => by cases done⟩

namespace Draft.Resolving

variable (resolving : Draft.Resolving R)
include resolving

theorem plain {next : Expr × List VarId → Lower α} (scope : ScopeId) (e : Expr)
    (reads : List VarId) (rest : ∀ resolved, Does R count (next resolved)) :
    Does R count (do e.requirePlain; next (← resolve scope e reads)) :=
  resolving.then_ (resolving.check _) fun _ => resolving.then_ (resolving.resolves scope e reads) rest

theorem enter {next : ScopeId → Lower α} (scope : ScopeId)
    (rest : ∀ child, Does R count (next child)) : Does R count (openScope scope >>= next) :=
  resolving.then_ (resolving.opens scope) rest

end Draft.Resolving

section Whole

mutual

theorem Stmt.resolveWhole_does (resolving : Draft.Resolving R) (s : Stmt) (scope : ScopeId)
    (reads : List VarId) : Does R s.declarations.length (s.resolveWhole scope reads) := by
  match s with
  | .declare name type mutable value location =>
      exact resolving.plain scope value reads fun _ =>
        resolving.last (resolving.declares ..) _
  | .assign target value location =>
      exact resolving.then_ (resolving.check _) fun _ =>
        resolving.then_ (resolving.target ..) fun _ => resolving.last (resolving.resolves ..) _
  | .evaluate value location => exact resolving.plain scope value reads fun _ => resolving.pure _
  | .branch condition thenBranch none location =>
      exact resolving.plain scope condition reads fun _ => resolving.enter scope fun _ =>
        resolving.last (thenBranch.resolveWhole_does resolving _ _) _
  | .branch condition thenBranch (some elseBranch) location =>
      rw [Stmt.declarations, List.length_append]
      exact resolving.plain scope condition reads fun _ => resolving.enter scope fun _ =>
        resolving.seq (thenBranch.resolveWhole_does resolving _ _) fun _ =>
        resolving.enter scope fun _ =>
        resolving.last (elseBranch.resolveWhole_does resolving _ _) _
  | .block body location =>
      exact resolving.enter scope fun _ => resolving.last (Stmt.resolveAll_does resolving body _ _) _
  | .loop condition body location =>
      exact resolving.plain scope condition reads fun _ => resolving.enter scope fun _ =>
        resolving.last (body.resolveWhole_does resolving _ _) _
  | .select scrutinee arms location =>
      exact resolving.plain scope scrutinee reads fun _ =>
        resolving.last (Arm.resolveAll_does resolving arms _ _) _
  | .attempt body handler location =>
      rw [Stmt.declarations, List.length_append]
      exact resolving.enter scope fun _ =>
        resolving.seq (body.resolveWhole_does resolving _ _) fun _ =>
        resolving.enter scope fun _ =>
        resolving.last (handler.resolveWhole_does resolving _ _) _

theorem Stmt.resolveAll_does (resolving : Draft.Resolving R) (body : List Stmt) (scope : ScopeId)
    (reads : List VarId) :
    Does R (Stmt.allDeclarations body).length (Stmt.resolveAll scope reads body) := by
  match body with
  | [] => exact resolving.pure _
  | s :: rest =>
      rw [Stmt.allDeclarations, List.length_append]
      exact resolving.seq (s.resolveWhole_does resolving scope reads) fun _ =>
        resolving.last (Stmt.resolveAll_does resolving rest scope _) _

theorem Arm.resolveAll_does (resolving : Draft.Resolving R) (arms : List Arm) (scope : ScopeId)
    (reads : List VarId) :
    Does R (Arm.allDeclarations arms).length (Arm.resolveAll scope reads arms) := by
  match arms with
  | [] => exact resolving.pure _
  | .mk none body :: rest =>
      rw [Arm.allDeclarations, List.length_append]
      exact resolving.enter scope fun _ =>
        resolving.seq (body.resolveWhole_does resolving _ _) fun _ =>
        resolving.last (Arm.resolveAll_does resolving rest scope _) _
  | .mk (some pattern) body :: rest =>
      rw [Arm.allDeclarations, List.length_append]
      exact resolving.plain scope pattern reads fun _ => resolving.enter scope fun _ =>
        resolving.seq (body.resolveWhole_does resolving _ _) fun _ =>
        resolving.last (Arm.resolveAll_does resolving rest scope _) _

end

theorem Lower.declareParams_does (resolving : Draft.Resolving R) (params : List Parameter) :
    Does R params.length (declareParams params) := by
  induction params with
  | nil => exact resolving.pure _
  | cons param rest ih =>
      rw [List.length_cons, Nat.add_comm]
      exact resolving.seq (resolving.declares ..) fun _ => resolving.last ih _

end Whole

section Body

namespace Draft.Resolving

variable (resolving : Draft.Resolving R)
  (adds : ∀ kind scope location reads declares,
    Does R 0 (addNode kind scope location reads declares))
include resolving adds

theorem places (s : Stmt) (scope : ScopeId) (reads : List VarId) (declares : Option VarId) :
    Does R 0 (statementPiece s scope reads declares) :=
  resolving.last (adds ..) _

theorem suspends (context : LoweringContext) (payload : Expr) (scope : ScopeId)
    (location : Location) : Does R 0 (suspension context payload scope location) :=
  resolving.then_ (resolving.check _) fun _ => resolving.then_ resolving.get fun _ =>
    resolving.then_ (resolving.check _) fun _ => resolving.then_ (resolving.resolves ..) fun _ =>
    resolving.last (adds ..) _

theorem forks (condition : Expr) (scope : ScopeId) (location : Location) :
    Does R 0 (openBranch condition scope location) :=
  resolving.then_ (resolving.check _) fun _ => resolving.then_ resolving.get fun _ =>
    resolving.then_ (resolving.check _) fun _ => resolving.then_ (resolving.resolves ..) fun _ =>
    resolving.then_ (adds ..) fun _ => resolving.last (adds ..) _

theorem declaration (context : LoweringContext) (name : String) (type : DataType) (mutable : Bool)
    (value : Expr) (location : Location) (scope : ScopeId) :
    Does R 1 ((Stmt.declare name type mutable value location).lower context scope) := by
  change Does R (1 + 0) _
  exact resolving.then_ (resolving.check _) fun _ => resolving.then_ resolving.get fun _ =>
    resolving.then_ (resolving.check _) fun _ => resolving.then_ (resolving.resolves ..) fun _ =>
    resolving.seq (resolving.declares ..) fun _ => resolving.places adds ..

end Draft.Resolving

theorem Draft.Building.lowering (building : Draft.Building R) (context : LoweringContext) :
    Draft.Lowering R context where
  toResolving := building.toResolving
  warns := building.warns
  connects := building.connects
  places := fun s scope reads => building.places building.adds s scope reads none
  suspends := building.suspends building.adds context
  forks := building.forks building.adds
  declaration := building.declaration building.adds context

variable {context : LoweringContext} (lowering : Draft.Lowering R context)
include lowering

theorem Lower.whole_does (construct : Construct) (s : Stmt) (scope : ScopeId) :
    Does R s.declarations.length (whole context construct s scope) := by
  rw [whole]
  split
  · exact .throw _ _
  · split
    · exact .throw _ _
    · exact lowering.then_ (lowering.warns ..) fun _ => lowering.then_ lowering.get fun _ =>
        lowering.seq (s.resolveWhole_does lowering.toResolving scope _) fun _ =>
        lowering.places ..

mutual

theorem Stmt.lower_does (s : Stmt) (scope : ScopeId) :
    Does R s.declarations.length (s.lower context scope) := by
  match s with
  | .declare name type mutable value location => exact lowering.declaration ..
  | .assign target value location =>
      exact lowering.then_ (lowering.check _) fun _ => lowering.then_ (lowering.target ..) fun _ =>
        lowering.then_ (lowering.resolves ..) fun _ => lowering.places ..
  | .evaluate value location =>
      rw [Stmt.lower]
      split
      · exact lowering.suspends ..
      · exact lowering.plain scope value [] fun _ => lowering.places ..
  | .branch condition thenBranch none location =>
      exact lowering.then_ (lowering.forks ..) fun _ => lowering.enter scope fun _ =>
        lowering.seq (thenBranch.lower_does _) fun _ => lowering.enter scope fun _ =>
        lowering.then_ (lowering.places ..) fun _ => lowering.joins lowering.connects ..
  | .branch condition thenBranch (some elseBranch) location =>
      rw [Stmt.declarations, List.length_append]
      exact lowering.then_ (lowering.forks ..) fun _ => lowering.enter scope fun _ =>
        lowering.seq (thenBranch.lower_does _) fun _ => lowering.enter scope fun _ =>
        lowering.seq (elseBranch.lower_does _) fun _ => lowering.joins lowering.connects ..
  | .block body location => exact Stmt.lowerBlock_does body scope location
  | .loop .. | .select .. | .attempt .. => exact whole_does lowering _ _ scope

theorem Stmt.lowerBlock_does (body : List Stmt) (scope : ScopeId) (location : Location) :
    Does R (Stmt.allDeclarations body).length (Stmt.lowerBlock context scope location body) := by
  match body with
  | [] => exact lowering.places ..
  | [only] =>
      rw [Stmt.allDeclarations, Stmt.allDeclarations, List.append_nil]
      exact only.lower_does scope
  | first :: second :: rest =>
      rw [Stmt.allDeclarations, List.length_append]
      exact lowering.enter scope fun _ => lowering.seq (first.lower_does _) fun _ =>
        lowering.last (Stmt.lowerAfter_does (second :: rest) _ _) _

theorem Stmt.lowerAfter_does (rest : List Stmt) (scope : ScopeId) (last : NodeId) :
    Does R (Stmt.allDeclarations rest).length (Stmt.lowerAfter context scope last rest) := by
  match rest with
  | [] => exact lowering.pure _
  | s :: rest =>
      rw [Stmt.allDeclarations, List.length_append]
      exact lowering.seq (s.lower_does scope) fun _ =>
        lowering.then_ (lowering.connects ..) fun _ => Stmt.lowerAfter_does rest scope _

end

end Body

/-- What lowering does to the empty draft, it does all in all. -/
theorem Body.build_does {settings : Settings} {arity : Nat} {e : Expr} {body : Body}
    (lowering : ∀ function, e.function? = some function →
      Draft.Lowering R ⟨settings.strict, function.yieldType⟩)
    (done : Body.build settings arity e = .ok body) : ∃ function draft,
      e.function? = some function ∧ body.yieldType = function.yieldType ∧
      R (function.params.length + function.body.declarations.length) {} draft ∧
      (∀ id, body.graph.node? id = draft.graph.node? id) ∧ body.symbols = draft.symbols := by
  unfold Body.build at done
  cases found : e.function? with
  | none => simp [found] at done
  | some function =>
      simp only [found] at done
      split at done
      · cases done
      · obtain ⟨⟨params, draft⟩, inFunction, done⟩ := ok_bind done
        cases done
        obtain ⟨_, middle, declaring, inFunction⟩ := bind_ok inFunction
        obtain ⟨piece, after, inBody, inFunction⟩ := bind_ok inFunction
        obtain ⟨_, _, heading, inFunction⟩ := bind_ok inFunction
        cases heading
        obtain ⟨rfl, rfl⟩ := pure_ok inFunction
        have steps := lowering function found
        have declared := (declareParams_does steps.toResolving _).changes _ _ _ declaring
        have lowered := (function.body.lower_does steps _).changes _ _ _ inBody
        exact ⟨function, after, rfl, rfl, steps.trans declared lowered, fun _ => rfl, rfl⟩

namespace Lower

variable {before after : Draft} {scope : ScopeId}

theorem resolve_same {e : Expr} {reads : List VarId} {resolved : Expr × List VarId}
    (done : resolve scope e reads before = .ok (resolved, after)) :
    after.graph = before.graph ∧ after.symbols = before.symbols := by
  unfold resolve at done
  split at done
  · cases done
    exact ⟨rfl, rfl⟩
  · cases done

theorem declare_adds {name : String} {type : DataType} {mutable parameter : Bool}
    {location : Location} {info : Variable}
    (done : declare scope name type mutable parameter location before = .ok (info, after)) :
    after.graph = before.graph ∧
      after.symbols.variables.nextUid = before.symbols.variables.nextUid ∧
      after.symbols.variables.size = before.symbols.variables.size + 1 := by
  obtain ⟨declared, graph⟩ := declare_symbols done
  obtain ⟨_, _, table, _⟩ := Symbols.declare_eq_ok declared
  rw [table]
  exact ⟨graph, rfl, Array.size_push _⟩

end Lower

/-- The uids that were given out are the numbers of the nodes there are. -/
structure Draft.Numbered (draft : Draft) : Prop where
  next : draft.symbols.variables.nextUid = draft.graph.size
  each : ∀ (id : Nat) node, draft.graph.node? id = some node → node.uid = id

theorem Draft.numbered_building :
    Draft.Building fun _ before after => before.Numbered → after.Numbered where
  refl := fun _ numbered => numbered
  trans := fun first second numbered => second (first numbered)
  opens := by
    refine fun outer => ⟨fun before scope after done numbered => ?_⟩
    cases done
    exact ⟨numbered.next, numbered.each⟩
  declares := by
    refine fun scope name type mutable parameter location =>
      ⟨fun before var after done numbered => ?_⟩
    obtain ⟨graph, next, _⟩ := declare_adds done
    exact ⟨by rw [next, graph, numbered.next], graph ▸ numbered.each⟩
  resolves := by
    refine fun scope e reads => ⟨fun before a after done numbered => ?_⟩
    obtain ⟨graph, symbols⟩ := resolve_same done
    exact ⟨by rw [symbols, graph, numbered.next], graph ▸ numbered.each⟩
  warns := by
    refine fun cause location => ⟨fun before a after done numbered => ?_⟩
    cases done
    exact ⟨numbered.next, numbered.each⟩
  adds := by
    refine fun kind scope location reads declares => ⟨fun before id after done numbered => ?_⟩
    cases done
    refine ⟨?_, fun id node present => ?_⟩
    · rw [Graph.size_push, ← numbered.next]
    · rw [Graph.node?_push] at present
      split at present
      · rename_i last
        cases present
        exact numbered.next.trans last.symm
      · exact numbered.each id node present
  connects := by
    refine fun source target => ⟨fun before a after done numbered => ?_⟩
    obtain ⟨connected, symbols⟩ := connect_ok done
    refine ⟨?_, fun id node present => ?_⟩
    · rw [symbols, numbered.next, Graph.size_connect connected]
    · rw [Graph.node?_connect connected, Option.map_eq_some_iff] at present
      obtain ⟨old, there, rfl⟩ := present
      rw [← numbered.each id old there]
      split <;> rfl

theorem Draft.counted_building : Draft.Building fun count before after =>
    after.symbols.variables.size = before.symbols.variables.size + count where
  refl := fun _ => rfl
  trans := fun first second => by rw [second, first, Nat.add_assoc]
  opens := by
    refine fun outer => ⟨fun before scope after done => ?_⟩
    cases done
    rfl
  declares := fun _ _ _ _ _ _ => ⟨fun _ _ _ done => (declare_adds done).2.2⟩
  resolves := fun _ _ _ => ⟨fun _ _ _ done => by rw [(resolve_same done).2]; rfl⟩
  warns := by
    refine fun cause location => ⟨fun before a after done => ?_⟩
    cases done
    rfl
  adds := by
    refine fun kind scope location reads declares => ⟨fun before id after done => ?_⟩
    cases done
    rfl
  connects := fun _ _ => ⟨fun _ _ _ done => by rw [(connect_ok done).2]; rfl⟩

theorem Body.build_uid {settings : Settings} {arity : Nat} {e : Expr} {body : Body}
    (done : Body.build settings arity e = .ok body) {id : Nat} {node : Node}
    (present : body.graph.node? id = some node) : node.uid = id := by
  obtain ⟨_, draft, _, _, numbered, nodes, _⟩ :=
    Body.build_does (fun _ _ => Draft.numbered_building.lowering _) done
  have start : ({} : Draft).Numbered := ⟨rfl, fun id node present => by cases present⟩
  rw [nodes] at present
  exact (numbered start).each id node present

end Resumable
