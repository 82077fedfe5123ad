import Resumable.Proofs.Lowering.Body

/-! Lowering function literals: the parameters, the head of the graph, and the body between. -/

namespace Resumable

open Symbols Lower

/-- The variable that a parameter becomes. -/
structure Parameter.Becomes (symbols : Symbols) (param : Parameter) (info : Variable) : Prop where
  found : symbols.variables.get? info.id = some info
  type : info.type = param.type
  fixed : info.mutable = false

def Parameter.naming (params : List Parameter) (infos : List Variable) : Naming :=
  (params.map Parameter.name).zip (infos.map Variable.localName)

/-- Parameters that were declared in the root scope. -/
structure Lower.Declares (params : List Parameter) (infos : List Variable) (before after : Draft) :
    Prop where
  graph : after.graph = before.graph
  sound : after.symbols.Sound
  open_ : Open ScopeChain.root after.symbols
  extends_ : Extends ScopeChain.root before.symbols after.symbols
  becomes : List.Forall₂ (Parameter.Becomes after.symbols) params infos
  visible : ∀ var, var ∈ after.symbols.scopes.visible ScopeChain.root ↔
    var ∈ infos.map Variable.id ∨ var ∈ before.symbols.scopes.visible ScopeChain.root
  new : ∀ param ∈ params,
    before.symbols.scopes.declaredHere? ScopeChain.root param.name = none
  fresh : ∀ info ∈ infos, before.symbols.variables.isTaken info.localName = false
  names : (params.map Parameter.name).Nodup
  locals : (infos.map Variable.localName).Nodup
  agrees : ∀ inner names, Agrees before.symbols ScopeChain.root [] inner names →
    Agrees after.symbols ScopeChain.root [] (inner ++ Parameter.naming params infos) names

theorem Lower.declareParams_ok (params : List Parameter) {before after : Draft}
    {vars : List VarId} (sound : before.symbols.Sound)
    (open_ : Open ScopeChain.root before.symbols)
    (done : declareParams params before = .ok (vars, after)) :
    ∃ infos, vars = infos.map Variable.id ∧ Declares params infos before after := by
  induction params generalizing before vars with
  | nil =>
      obtain ⟨rfl, rfl⟩ := pure_ok done
      exact ⟨[], rfl, rfl, sound, open_, .refl _ _, .nil, by simp, by simp, by simp, .nil,
        .nil, fun inner names agrees => (List.append_nil inner).symm ▸ agrees⟩
  | cons param rest ih =>
      obtain ⟨info, middle, made, done⟩ := bind_ok done
      obtain ⟨more, _, others, done⟩ := bind_ok done
      obtain ⟨rfl, rfl⟩ := pure_ok done
      obtain ⟨declared, graph⟩ := declare_ok sound made
      obtain ⟨infos, rfl, declares⟩ := ih declared.sound (declared.open_ open_) others
      refine ⟨info :: infos, rfl, declares.graph.trans graph, declares.sound, declares.open_,
        declared.extends_.trans declares.extends_, .cons ?_ declares.becomes, ?_, ?_, ?_,
        List.nodup_cons.mpr ⟨?_, declares.names⟩, List.nodup_cons.mpr ⟨?_, declares.locals⟩, ?_⟩
      · exact ⟨declares.extends_.kept _ info declared.found, declared.type, declared.mutable⟩
      · intro var
        rw [declares.visible, declared.visible, List.map_cons, List.mem_cons, or_left_comm, or_assoc]
      · intro other present
        rcases List.mem_cons.mp present with rfl | present
        · exact declared.new
        · have missing := declares.new other present
          rw [declared.declaredHere?] at missing
          split at missing
          · cases missing
          · exact missing
      · intro other present
        rcases List.mem_cons.mp present with rfl | present
        · exact declared.fresh
        · have untaken := declares.fresh other present
          rw [← Bool.not_eq_true] at untaken ⊢
          exact fun taken => untaken (declared.extends_.isTaken taken)
      · intro present
        obtain ⟨other, member, same⟩ := List.mem_map.mp present
        have missing := declares.new other member
        rw [declared.declaredHere?, if_pos same] at missing
        cases missing
      · intro present
        obtain ⟨other, member, same⟩ := List.mem_map.mp present
        have untaken := declares.fresh other member
        rw [same, isTaken_iff_named.mpr ⟨info.id, info, declared.found, rfl⟩] at untaken
        cases untaken
      · intro inner names agrees
        have first := agrees.declare sound declared fun _ present _ => present
        have all := declares.agrees _ names first
        rw [List.append_assoc] at all
        exact all

/-- A body that was lowered from a function literal: the variables of its parameters, its resolved
statement, and the route that lies in its graph. -/
structure Body.Built (body : Body) (function : Function) (infos : List Variable) (s' : Stmt)
    (route : Route) : Prop where
  sound : body.symbols.Sound
  params : body.params = infos.map Variable.id
  becomes : List.Forall₂ (Parameter.Becomes body.symbols) function.params infos
  head : body.graph.head = route.first?
  some_ : route ≠ .stop
  distinct : route.ids.Nodup
  inside : ∀ id : Nat, id ∈ route.ids → id < body.graph.size
  count : body.graph.size = route.ids.length
  laid : Route.Laid body.graph none route
  leads : ∃ before behind, before.Sound ∧ (∀ var ∈ before.known, var ∈ body.params) ∧
    Route.Leads before route behind
  fits : route.Fits body.symbols
  names : (function.params.map Parameter.name).Nodup
  makes : ∀ made ∈ s'.declarations, ∃ var, Makes body.symbols var made
  unique : (infos.map Variable.localName ++ s'.declarations.map Prod.fst).Nodup
  apart : ∀ info ∈ infos, ∀ other ∈ infos, info.slot = other.slot → info = other
  renamed : function.body.contained = true →
    function.body.Renamed true [] (Parameter.naming function.params infos) s'
  flows : s'.Flows route

theorem Body.Built.locals {body : Body} {function : Function} {infos : List Variable} {s' : Stmt}
    {route : Route} (built : body.Built function infos s' route) :
    (infos.map Variable.localName).Nodup :=
  (List.nodup_append.mp built.unique).1

theorem Lower.function_ok {context : LoweringContext} {function : Function} {params : List VarId}
    {draft : Draft} (done : Lower.function context function {} = .ok (params, draft)) :
    ∃ infos s' route, ∀ yieldType warnings,
      Body.Built ⟨draft.graph, draft.symbols, params, yieldType, warnings⟩ function infos s'
        route := by
  obtain ⟨_, middle, declaring, done⟩ := bind_ok done
  obtain ⟨piece, after, lowering, done⟩ := bind_ok done
  obtain ⟨_, _, heading, done⟩ := bind_ok done
  cases heading
  obtain ⟨rfl, rfl⟩ := pure_ok done
  obtain ⟨infos, rfl, declares⟩ := declareParams_ok function.params initial_sound initial_open
    declaring
  obtain ⟨s', route, lowers⟩ := function.body.lower_ok context declares.sound declares.open_ lowering
  have start : Agrees ({} : Draft).symbols ScopeChain.root [] [] function.body.free := by
    refine ⟨?_, fun _ _ => rfl, ?_⟩
    · intro name _ info found
      cases found
    · simp
  have agrees := declares.agrees [] _ start
  have extends_ := lowers.grown.extends_
  have making := lowers.lays.makes
  rw [Stmt.Flows.declarations_eq s' lowers.flows] at making
  refine ⟨infos, s', route, fun _ _ => ⟨lowers.grown.sound, rfl, ?_, lowers.lays.entry.symm, ?_,
    lowers.lays.distinct, fun id member => (lowers.lays.window id member).2, ?_, ?_, ?_,
    lowers.lays.fits, declares.names, fun made member => ?_,
    List.nodup_append.mpr ⟨declares.locals, making.distinct, ?_⟩, ?_,
    fun contained => lowers.renamed contained [] _ agrees, lowers.flows⟩⟩
  · refine declares.becomes.imp fun param info becomes => ?_
    exact ⟨extends_.kept _ info becomes.found, becomes.type, becomes.fixed⟩
  · intro empty
    have entry := lowers.lays.entry
    rw [empty] at entry
    cases entry
  · have count := lowers.lays.count
    rw [declares.graph] at count
    exact count.trans (Nat.zero_add _)
  · exact lowers.lays.laid.congr fun _ _ => rfl
  · refine ⟨_, _, declares.sound.context _, fun var seen => ?_, lowers.lays.leads⟩
    rcases (declares.visible var).mp seen with here | impossible
    · exact here
    · cases impossible
  · obtain ⟨var, _, _, makes⟩ := making.each made member
    exact ⟨var, makes⟩
  · intro name here name' there same
    obtain ⟨info, member, rfl⟩ := List.mem_map.mp here
    obtain ⟨made, member', rfl⟩ := List.mem_map.mp there
    obtain ⟨_, _, becomes⟩ := forall₂_right declares.becomes member
    have named : Named middle.symbols info.id info.localName := ⟨info, becomes.found, rfl⟩
    obtain ⟨var, newer, _, makes⟩ := making.each made member'
    obtain rfl := makes.named.unique lowers.grown.sound (same ▸ named.extend extends_)
    exact absurd (Nat.lt_of_lt_of_le named.lt newer) (Nat.lt_irrefl _)
  · intro info member other member' same
    obtain ⟨_, _, becomes⟩ := forall₂_right declares.becomes member
    obtain ⟨_, _, becomes'⟩ := forall₂_right declares.becomes member'
    have seen := (declares.visible info.id).mpr (.inl (List.mem_map_of_mem member))
    have seen' := (declares.visible other.id).mpr (.inl (List.mem_map_of_mem member'))
    have equal := declares.open_.apart _ seen _ seen' info other becomes.found becomes'.found same
    exact Option.some.inj (becomes.found.symm.trans (equal ▸ becomes'.found))

theorem Body.build_ok {settings : Settings} {arity : Nat} {e : Expr} {body : Body}
    (done : Body.build settings arity e = .ok body) :
    ∃ function infos s' route, e.function? = some function ∧
      body.Built function infos s' route := by
  unfold Body.build at done
  cases found : e.function? with
  | none => simp [found] at done
  | some function =>
      simp only [found] at done
      split at done
      · cases done
      · obtain ⟨⟨params, draft⟩, lowering, done⟩ := ok_bind done
        cases done
        obtain ⟨infos, s', route, built⟩ := Lower.function_ok lowering
        exact ⟨function, infos, s', route, rfl, built _ _⟩

end Resumable
