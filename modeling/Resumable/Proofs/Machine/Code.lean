import Resumable.Machine.Emission
import Resumable.Proofs.Lowering.Function
import Resumable.Proofs.Region.Liveness
import Resumable.Proofs.Region.Persistence

/-! The code of a region: what is written for the route that the region is the front of. Writing it
never fails, and every node of the front is written once. -/

namespace Resumable

namespace Emit

variable {α β : Type}

theorem bind_apply (x : Emit α) (f : α → Emit β) (log : List NodeId) :
    (x >>= f) log = match x log with
      | (.ok a, middle) => f a middle
      | (.error failure, middle) => (.error failure, middle) := by
  have opened : (x >>= f) log = ExceptT.bindCont f (x log).1 (x log).2 := rfl
  rw [opened]
  rcases x log with ⟨_ | _, middle⟩ <;> rfl

theorem require_bind {result : Except Failure α} {a : α} (passed : result = .ok a)
    (f : α → Emit β) (log : List NodeId) : (require result >>= f) log = f a log := by
  subst passed
  rfl

end Emit

namespace Symbols

variable {symbols : Symbols} {vars : List VarId}

def infos (symbols : Symbols) (vars : List VarId) : List Variable :=
  vars.filterMap symbols.variables.get?

theorem mem_infos (sound : symbols.Sound) {info : Variable} : info ∈ symbols.infos vars ↔
    info.id ∈ vars ∧ symbols.variables.get? info.id = some info := by
  rw [infos, List.mem_filterMap]
  constructor
  · rintro ⟨var, member, found⟩
    obtain rfl := sound.numbered var info found
    exact ⟨member, found⟩
  · rintro ⟨member, found⟩
    exact ⟨info.id, member, found⟩

theorem exists_info {var : Nat} (known : var < symbols.variables.size) :
    ∃ info, symbols.variables.get? var = some info :=
  ⟨_, Array.getElem?_eq_getElem known⟩

theorem entry_eq {var : VarId} {info : Variable} (found : symbols.variables.get? var = some info) :
    symbols.entry var = .ok info := by
  rw [entry, found]

theorem entries (known : ∀ var : Nat, var ∈ vars → var < symbols.variables.size) :
    List.Forall₂ (fun var info => symbols.entry var = .ok info) vars (symbols.infos vars) := by
  induction vars with
  | nil => exact .nil
  | cons var rest ih =>
      obtain ⟨info, found⟩ := exists_info (known var List.mem_cons_self)
      have further := ih fun other member => known other (List.mem_cons_of_mem _ member)
      have shape : symbols.infos (var :: rest) = info :: symbols.infos rest :=
        List.filterMap_cons_some found
      rw [shape]
      exact .cons (entry_eq found) further

theorem mapM_entry {β : Type} (make : Variable → β)
    (known : ∀ var : Nat, var ∈ vars → var < symbols.variables.size) :
    (vars.mapM fun var => (symbols.entry var).map make) = .ok ((symbols.infos vars).map make) := by
  refine mapM_eq (List.forall₂_map_right_iff.mpr ((entries known).imp fun var info found => ?_))
  rw [found]
  rfl

end Symbols

section Suspensions

variable {body : Body} {analysis : Analysis} {region : Region} {site : Site} {node : Node}

/-- The variables that a region stores where it suspends at a site, in the order of their slots. -/
def Region.kept (body : Body) (analysis : Analysis) (region : Region) (site : Site) :
    List Variable :=
  Variable.sortBySlot ((body.symbols.infos (body.symbols.scopes.visible site.scope)).filter
    (analysis.mustStore region site.id))

theorem Analysis.persisted_eq (sound : body.symbols.Sound) (id : node.id = site.id)
    (scope : node.scope = site.scope) :
    analysis.persisted body region node = .ok (region.kept body analysis site) := by
  have entries := mapM_eq (body.symbols.entries fun var seen =>
    Symbols.lt_of_mem_visible sound (seen : var ∈ body.symbols.scopes.visible site.scope))
  rw [persisted, scope, entries, id]
  rfl

theorem Region.mem_kept (sound : body.symbols.Sound) {info : Variable} :
    info ∈ region.kept body analysis site ↔ info.id ∈ body.symbols.scopes.visible site.scope ∧
      body.symbols.variables.get? info.id = some info ∧
      analysis.mustStore region site.id info = true := by
  rw [kept, Variable.mem_sortBySlot, List.mem_filter, Symbols.mem_infos sound, and_assoc]

/-- Unless everything is to be stored, what is immutable and older than the region is left out. -/
theorem Region.kept_filter (lazily : analysis.persistImmutable = false) :
    region.kept body analysis site =
      (region.kept body { analysis with persistImmutable := true } site).filter fun info =>
        info.mutable || region.declared.contains info.id := by
  have must (info : Variable) : analysis.mustStore region site.id info =
      ((info.mutable || region.declared.contains info.id) &&
        Analysis.mustStore { analysis with persistImmutable := true } region site.id info) := by
    have live : Analysis.liveAfter? { analysis with persistImmutable := true } region site.id =
        analysis.liveAfter? region site.id := rfl
    rw [Analysis.mustStore, Analysis.mustStore, live, lazily]
    cases analysis.liveAfter? region site.id with
    | none => exact (Bool.and_false _).symm
    | some live => simp [Bool.and_comm]
  rw [kept, kept, Variable.filter_sortBySlot, List.filter_filter, funext must]

/-- What a region writes where it suspends. -/
def Region.leaving (body : Body) (analysis : Analysis) (region : Region) (site : Site)
    (payload : Expr) : List Emitted :=
  (region.kept body analysis site).map Variable.store ++
    [.result payload.untyped, .goTo ((region.exits.lookup site.id).getD .complete), .leave]

theorem Emit.suspension_eq (sound : body.symbols.Sound) (id : node.id = site.id)
    (scope : node.scope = site.scope) {target : Target}
    (exit : region.exits.lookup site.id = some target) (payload : Expr) (log : List NodeId) :
    suspension body analysis region node payload log =
      (.ok (region.leaving body analysis site payload), log) := by
  rw [suspension, require_bind (Analysis.persisted_eq sound id scope), id, exit, Region.leaving,
    exit]
  rfl

end Suspensions

namespace Route

/-- The code of a route, with what is written at suspensions. -/
def code (leave : Site → Expr → List Emitted) : Route → List Emitted
  | stop => []
  | plain _ none rest => rest.code leave
  | plain _ (some s) rest => Emit.statementCode s ++ rest.code leave
  | suspend site payload _ => leave site payload
  | branch _ condition thenRoute elseRoute rest =>
    .branch condition.untyped (thenRoute.code leave) (elseRoute.code leave) ::
      if thenRoute.passes || elseRoute.passes then rest.code leave else []

def flow (next : Option NodeId) (route : Route) : Flow :=
  if route.passes then (if next.isSome then .reachedMerge else .fallsThrough) else .suspended

end Route

namespace Emit

variable {body : Body} {analysis : Analysis} {region : Region} {e : NodeId} {stop : Option NodeId}
  {node : Node} {depth : Nat} {log : List NodeId}

def onward (body : Body) (analysis : Analysis) (region : Region) (depth : Nat)
    (next stop : Option NodeId) : Emit (List Emitted × Flow) :=
  match next with
  | none => pure ([], .fallsThrough)
  | some next => fromNode body analysis region depth next stop

theorem onward_some (next : NodeId) : onward body analysis region depth (some next) stop =
    fromNode body analysis region depth next stop := rfl

theorem onlySuccessor?_eq {next : Option NodeId} (successors : node.successors = next.toList)
    (fault : GraphFault) (location : Location) :
    onlySuccessor? node fault location = pure next := by
  rw [onlySuccessor?, successors]
  cases next <;> rfl

section Node

variable (present : body.graph.node? e = some node) (away : stop ≠ some e) (fresh : e ∉ log)

include present in
theorem node_eq : body.graph.node e = .ok node := by
  rw [Graph.node, present]

include present away fresh in
theorem met_first (next : Node → Emit (List Emitted × Flow)) :
    (do
      if stop = some e then return ([], .reachedMerge)
      if (← get).contains e then return ([], .alreadyEmitted)
      let node ← require (body.graph.node e)
      record e
      next node : Emit (List Emitted × Flow)) log = next node (log ++ [e]) := by
  have unseen : ¬ log.contains e = true := by simpa using fresh
  rw [if_neg away]
  change (if log.contains e = true then _ else _ : Emit (List Emitted × Flow)) log = _
  rw [if_neg unseen, require_bind (node_eq present)]
  rfl

include present away fresh in
theorem fromNode_plain {statement : Option Stmt} {next : Option NodeId}
    (kind : node.kind = Route.plainKind statement) (successors : node.successors = next.toList) :
    fromNode body analysis region (depth + 1) e stop log =
      (do
        let (rest, flow) ← onward body analysis region depth next stop
        return (statement.elim [] statementCode ++ rest, flow) : Emit _) (log ++ [e]) := by
  rw [fromNode]
  refine (met_first present away fresh _).trans ?_
  rw [kind]
  cases statement with
  | none =>
      simp only [Route.plainKind, onlySuccessor?_eq successors, pure_bind, Option.elim_none,
        List.nil_append]
      cases next with
      | none => rfl
      | some next => exact (congrFun (bind_pure _) _).symm
  | some s =>
      simp only [Route.plainKind, onlySuccessor?_eq successors, pure_bind, Option.elim_some]
      cases next with
      | none => simp [onward]
      | some next => rfl

include present away fresh in
theorem fromNode_suspend {payload : Expr} (kind : node.kind = .suspend payload) :
    fromNode body analysis region (depth + 1) e stop log =
      (do return (← suspension body analysis region node payload, .suspended) : Emit _)
        (log ++ [e]) := by
  rw [fromNode]
  refine (met_first present away fresh _).trans ?_
  rw [kind]

include present away fresh in
theorem fromNode_branch {condition : Expr} {merge thenHead elseHead : NodeId}
    (kind : node.kind = .branch condition merge) (successors : node.successors = [thenHead, elseHead]) :
    fromNode body analysis region (depth + 1) e stop log =
      (do
        let (thenBlock, thenFlow) ← fromNode body analysis region depth thenHead (some merge)
        let (elseBlock, elseFlow) ← fromNode body analysis region depth elseHead (some merge)
        let code := Emitted.branch condition.untyped thenBlock elseBlock
        if thenFlow = .reachedMerge || elseFlow = .reachedMerge then
          let (rest, flow) ← fromNode body analysis region depth merge stop
          return (code :: rest, flow)
        else return ([code], mergedFlow thenFlow elseFlow) : Emit _) (log ++ [e]) := by
  rw [fromNode]
  refine (met_first present away fresh _).trans ?_
  rw [kind, successors]

end Node

end Emit

section FromNode

variable {body : Body} {analysis : Analysis} {region : Region} {stop : Option NodeId}
  {route : Route} {log : List NodeId}

theorem Route.flow_reachedMerge (merge : NodeId) (route : Route) :
    decide (route.flow (some merge) = .reachedMerge) = route.passes := by
  rw [flow]
  cases route.passes <;> rfl

theorem Route.front_ids_subset (route : Route) {id : NodeId} (member : id ∈ route.front.map Site.id) :
    id ∈ route.ids := by
  obtain ⟨site, inside, rfl⟩ := List.mem_map.mp member
  exact List.mem_map_of_mem (front_subset route inside)

/-- Writing from the first node of a route on gives the code of the route and records its front. -/
theorem Emit.onward_eq (depth : Nat) (sound : body.symbols.Sound)
    (laid : Route.Laid body.graph stop route)
    (exits : ∀ halt ∈ route.halts, (region.exits.lookup halt.site.id).isSome)
    (distinct : route.ids.Nodup) (fresh : ∀ id ∈ route.ids, id ∉ log)
    (away : ∀ id ∈ route.ids, stop ≠ some id) (deep : route.ids.length < depth) :
    onward body analysis region depth (route.first?.or stop) stop log =
      (.ok (route.code (region.leaving body analysis), route.flow stop),
        log ++ route.front.map Site.id) := by
  obtain ⟨depth, rfl⟩ := Nat.exists_eq_add_one.mpr (Nat.zero_lt_of_lt deep)
  induction route generalizing depth stop log with
  | stop =>
      rw [Route.front, List.map_nil, List.append_nil]
      cases stop with
      | none => rfl
      | some e =>
          rw [Route.first?, Option.none_or, onward_some, fromNode, if_pos rfl]
          rfl
  | plain site statement rest ih =>
      obtain ⟨⟨node, present, is⟩, behind⟩ := laid
      obtain ⟨unused, apart⟩ := List.nodup_cons.mp distinct
      have shorter : rest.ids.length < depth := Nat.lt_of_succ_lt_succ deep
      obtain ⟨below, rfl⟩ := Nat.exists_eq_add_one.mpr (Nat.zero_lt_of_lt shorter)
      have new : ∀ id ∈ rest.ids, id ∉ log ++ [site.id] := fun id member =>
        List.not_mem_append (fresh id (List.mem_cons_of_mem _ member)) fun same =>
          unused (List.mem_singleton.mp same ▸ member)
      have written := ih behind exits apart new
        (fun id member => away id (List.mem_cons_of_mem _ member)) below shorter
      refine (fromNode_plain present (away _ List.mem_cons_self) (fresh _ List.mem_cons_self)
        is.kind is.successors).trans ?_
      rw [bind_apply, written]
      cases statement <;> simp [Route.code, Route.flow, Route.passes, Route.front] <;> rfl
  | suspend site payload rest _ =>
      obtain ⟨⟨node, present, is⟩, _⟩ := laid
      obtain ⟨target, exit⟩ := Option.isSome_iff_exists.mp (exits _ List.mem_cons_self)
      refine (fromNode_suspend present (away _ List.mem_cons_self) (fresh _ List.mem_cons_self)
        is.kind).trans ?_
      rw [bind_apply, suspension_eq sound is.id is.scope exit]
      rfl
  | branch site condition thenRoute elseRoute rest thenIH elseIH ih =>
      obtain ⟨merge, thenHead, elseHead, meets, starts, starts', ⟨node, present, is⟩, inThen,
        inElse, behind⟩ := laid
      rw [Route.ids_branch] at distinct fresh away deep
      obtain ⟨unused, apart⟩ := List.nodup_cons.mp distinct
      obtain ⟨distinctThen, apart', noThen⟩ := List.nodup_append.mp apart
      obtain ⟨distinctElse, distinctRest, noElse⟩ := List.nodup_append.mp apart'
      simp only [List.length_cons, List.length_append] at deep
      have atMerge := Route.mem_ids_of_first? meets
      have someMerge := List.length_pos_of_mem atMerge
      obtain ⟨below, rfl⟩ := Nat.exists_eq_add_one.mpr (show 0 < depth by omega)
      have new : ∀ id ∈ thenRoute.ids ++ (elseRoute.ids ++ rest.ids), id ∉ log ++ [site.id] :=
        fun id member => List.not_mem_append (fresh id (List.mem_cons_of_mem _ member)) fun same =>
          unused (List.mem_singleton.mp same ▸ member)
      have behindThen : ∀ id ∈ elseRoute.ids ++ rest.ids,
          id ∉ log ++ [site.id] ++ thenRoute.front.map Site.id := fun id member =>
        List.not_mem_append (new id (List.mem_append_right _ member)) fun inside =>
          noThen id (Route.front_ids_subset _ inside) id member rfl
      have behindElse : ∀ id ∈ rest.ids, id ∉ log ++ [site.id] ++ thenRoute.front.map Site.id ++
          elseRoute.front.map Site.id := fun id member =>
        List.not_mem_append (behindThen id (List.mem_append_right _ member)) fun inside =>
          noElse id (Route.front_ids_subset _ inside) id member rfl
      have first := thenIH inThen
        (fun halt inside => exits (halt.followedBy rest)
          (List.mem_append_left _ (List.mem_map_of_mem inside)))
        distinctThen (fun id member => new id (List.mem_append_left _ member))
        (fun id member same => noThen id member merge (List.mem_append_right _ atMerge)
          (Option.some.inj same).symm) below (by omega)
      have second := elseIH inElse
        (fun halt inside => exits (halt.followedBy rest) (List.mem_append_right _
          (List.mem_append_left _ (List.mem_map_of_mem inside))))
        distinctElse (fun id member => behindThen id (List.mem_append_left _ member))
        (fun id member same => noElse id member merge atMerge (Option.some.inj same).symm)
        below (by omega)
      rw [starts, Option.some_or, onward_some] at first
      rw [starts', Option.some_or, onward_some] at second
      refine (fromNode_branch present (away _ List.mem_cons_self) (fresh _ List.mem_cons_self)
        is.kind is.successors).trans ?_
      rw [bind_apply, first]
      dsimp only
      rw [bind_apply, second]
      dsimp only
      rw [Route.flow_reachedMerge, Route.flow_reachedMerge]
      by_cases through : (thenRoute.passes || elseRoute.passes) = true
      · have last := ih behind
          (fun halt inside => exits halt (by simp [Route.halts, through, inside]))
          distinctRest behindElse (fun id member => away id (by simp [member])) below (by omega)
        rw [meets, Option.some_or, onward_some] at last
        rw [if_pos through, bind_apply, last]
        simp only [Route.code, Route.flow, Route.passes, Route.front, through, if_true,
          Bool.true_and, List.map_cons, List.map_append, List.append_assoc, List.cons_append,
          List.nil_append]
        rfl
      · have blocked : thenRoute.passes = false ∧ elseRoute.passes = false := by
          simpa using through
        rw [if_neg through]
        simp [Route.code, Route.flow, Route.passes, Route.front, blocked]
        rfl

end FromNode
end Resumable
