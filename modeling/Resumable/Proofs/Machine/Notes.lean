import Resumable.Machine.Emission
import Resumable.Proofs.Graph.Search
import Resumable.Proofs.Lowered
import Resumable.Proofs.Lowering.Notes
import Resumable.Proofs.Machine.Suspensions

/-! Type notes have no part in what comes after a graph: its regions and its code are those of the
same graph without notes. So all that notes decide is which programs are accepted. -/

namespace Resumable

theorem NodeKind.fragment_bare (kind : NodeKind) : kind.bare.fragment = kind.fragment := by
  cases kind with
  | branch condition => simp [bare, fragment, condition.text_bare]
  | merge => rfl
  | suspend payload => simp [bare, fragment, payload.text_bare]
  | statement s => exact s.text_bare

@[simp] theorem Node.kind_bare (node : Node) : node.bare.kind = node.kind.bare := rfl

@[simp] theorem Node.successors_bare (node : Node) : node.bare.successors = node.successors := rfl

@[simp] theorem Node.fragment_bare (node : Node) : node.bare.fragment = node.fragment :=
  node.kind.fragment_bare

@[simp] theorem Node.isSuspension_bare (node : Node) : node.bare.isSuspension = node.isSuspension := by
  rw [isSuspension, isSuspension, bare]
  cases node.kind <;> rfl

namespace Graph

variable (graph : Graph)

theorem node_bare (id : NodeId) : graph.bare.node id = (graph.node id).map Node.bare := by
  rw [node, node, node?_bare]
  cases graph.node? id <;> rfl

theorem node_ok {id : NodeId} {node : Node} (found : graph.node id = .ok node) :
    graph.node? id = some node := by
  unfold Graph.node at found
  split at found
  · rename_i present
    cases found
    exact present
  · cases found

theorem members_bare (ids : List NodeId) : graph.bare.members ids =
    (graph.members ids).map fun member => (member.1, member.2.bare) := by
  simp only [members, node?_bare, List.map_filterMap, Option.map_map]
  rfl

theorem explore_bare {next : NodeId → Node → Except Failure (List NodeId)}
    (same : ∀ id node, next id node.bare = next id node) (seen stack : List NodeId) :
    graph.bare.explore next seen stack = graph.explore next seen stack := by
  fun_induction graph.explore next seen stack with
  | case1 => rw [explore]
  | case2 seen id rest known ih => rw [explore, dif_pos known, ih]
  | case3 seen id rest fresh absent =>
      have gone : graph.bare.node? id = none := by rw [node?_bare, absent]; rfl
      rw [explore, dif_neg fresh]
      split
      · rfl
      · rename_i present
        cases gone.symm.trans present
  | case4 seen id rest fresh node present failure failed =>
      have there : graph.bare.node? id = some node.bare := by rw [node?_bare, present]; rfl
      rw [explore, dif_neg fresh]
      split
      · rename_i absent
        cases absent.symm.trans there
      · rename_i other found
        cases there.symm.trans found
        rw [same, failed]
  | case5 seen id rest fresh node present ids goes ih =>
      have there : graph.bare.node? id = some node.bare := by rw [node?_bare, present]; rfl
      rw [explore, dif_neg fresh]
      split
      · rename_i absent
        cases absent.symm.trans there
      · rename_i other found
        cases there.symm.trans found
        rw [same, goes]
        exact ih

end Graph

namespace Region

theorem onward_bare (id : NodeId) (node : Node) : onward id node.bare = onward id node := by
  rw [onward, onward, node.isSuspension_bare, node.fragment_bare]
  rfl

variable (members : List (NodeId × Node))

theorem exits_bare (frontier : Frontier) (walked : Nat) :
    frontier.exits walked (members.map fun member => (member.1, member.2.bare)) =
      frontier.exits walked members := by
  induction members generalizing frontier with
  | nil => rfl
  | cons member rest ih =>
      have successors : member.2.bare.successors = member.2.successors := rfl
      rw [List.map_cons, Frontier.exits, Frontier.exits, member.2.isSuspension_bare, successors]
      simp only [ih]

theorem ofMembers_bare (id : RegionId) (start : NodeId) (exits : List (NodeId × Target)) :
    ofMembers id start exits (members.map fun member => (member.1, member.2.bare)) =
      ofMembers id start exits members := by
  rw [ofMembers, ofMembers, List.map_map, List.flatMap_map, List.filterMap_map]
  rfl

theorem discoverFrom_bare (graph : Graph) (done : List Region) (frontier : Frontier) :
    discoverFrom graph.bare done frontier = discoverFrom graph done frontier := by
  fun_induction discoverFrom graph done frontier with
  | case1 done frontier waiting =>
      rw [discoverFrom]
      split
      · rfl
      · rename_i waits
        cases waits.symm.trans waiting
  | case2 done frontier start rest waiting failure failed =>
      rw [discoverFrom]
      split
      · rename_i none_
        cases none_.symm.trans waiting
      · rename_i waits
        obtain ⟨rfl, rfl⟩ := List.cons.inj (waits.symm.trans waiting)
        rw [graph.explore_bare onward_bare, failed]
  | case3 done frontier start rest waiting ids walked =>
      rename_i ih
      rw [discoverFrom]
      split
      · rename_i none_
        cases none_.symm.trans waiting
      · rename_i waits
        obtain ⟨rfl, rfl⟩ := List.cons.inj (waits.symm.trans waiting)
        rw [graph.explore_bare onward_bare, walked]
        simp only [graph.members_bare, exits_bare, ofMembers_bare]
        exact ih

end Region

theorem Body.analyze_bare (body : Body) (settings : Settings) :
    body.bare.analyze settings = body.analyze settings := by
  unfold Body.analyze Region.discover
  simp only [Body.bare, Region.discoverFrom_bare]
  rfl

section Emission

variable {body : Body} {analysis : Analysis} {region : Region}

theorem Expr.untyped_of_plain {e : Expr} (plain : e.plain = true) : e.bare.untyped = e.untyped := by
  rw [e.untyped_bare, Expr.plain_bare plain]

theorem Emit.statementCode_bare {s : Stmt} (plain : s.plain = true) :
    statementCode s.bare = statementCode s := by
  rw [statementCode, statementCode, s.isUnit_bare, s.untyped_bare, s.plain_bare plain]

theorem Emit.suspension_bare (node : Node) {payload : Expr} (plain : payload.plain = true) :
    suspension body.bare analysis region node.bare payload.bare =
      suspension body analysis region node payload := by
  rw [suspension, suspension, Expr.untyped_of_plain plain, node.fragment_bare]
  rfl

theorem Emit.require_ok {α β : Type} (a : α) (next : α → Emit β) :
    (require (.ok a) >>= next) = next a := rfl

theorem Emit.require_error {α β : Type} (failure : Failure) (next : α → Emit β) :
    (require (.error failure) >>= next) = throw failure := rfl

variable (plain : ∀ id node, body.graph.node? id = some node → node.kind.plain = true)

include plain

/-- Code is written alike for a graph of plain fragments and for the same graph without notes. -/
theorem Emit.fromNode_bare (depth : Nat) (current : NodeId) (stop : Option NodeId) :
    fromNode body.bare analysis region depth current stop =
      fromNode body analysis region depth current stop := by
  induction depth generalizing current stop with
  | zero => rfl
  | succ depth ih =>
      have found : body.bare.graph.node current = (body.graph.node current).map Node.bare :=
        body.graph.node_bare current
      rw [fromNode, fromNode, found]
      split
      · rfl
      · refine bind_congr fun log => ?_
        split
        · rfl
        · cases there : body.graph.node current with
          | error => rw [Except.map, require_error, require_error]
          | ok node =>
              have fragment : node.kind.plain = true := plain current node (body.graph.node_ok there)
              rw [Except.map, require_ok, require_ok]
              refine bind_congr fun _ => ?_
              cases kind : node.kind with
              | branch condition merge =>
                  rw [kind] at fragment
                  simp only [Node.kind_bare, kind, NodeKind.bare, Node.successors_bare,
                    Node.fragment_bare, Expr.untyped_of_plain fragment, ih]
              | merge =>
                  simp only [Node.kind_bare, kind, NodeKind.bare, onlySuccessor?,
                    Node.successors_bare, Node.fragment_bare, ih]
                  rfl
              | suspend payload =>
                  rw [kind] at fragment
                  simp only [Node.kind_bare, kind, NodeKind.bare, suspension_bare node fragment]
              | statement s =>
                  rw [kind] at fragment
                  simp only [Node.kind_bare, kind, NodeKind.bare, onlySuccessor?,
                    Node.successors_bare, Node.fragment_bare, statementCode_bare fragment, ih]

theorem Body.emitState_bare (region : Region) :
    body.bare.emitState analysis region = body.emitState analysis region := by
  have size : body.bare.graph.size = body.graph.size := body.graph.size_bare
  have arrival : Emit.prologue body.bare analysis region = Emit.prologue body analysis region := rfl
  rw [emitState, emitState, Emit.state, Emit.state, size, arrival]
  simp only [Emit.fromNode_bare plain]

theorem Body.emitStates_bare (regions : List Region) (log : EmissionLog) :
    body.bare.emitStates analysis regions log = body.emitStates analysis regions log := by
  induction regions generalizing log with
  | nil => rfl
  | cons region rest ih => simp only [emitStates, emitState_bare plain, ih]

theorem Body.emit_bare (settings : Settings) (name : String) :
    body.bare.emit analysis settings name = body.emit analysis settings name := by
  rw [emit, emit, emitStates_bare plain]
  rfl

end Emission

mutual

def Emitted.notes : Emitted → List DataType
  | .run s => s.notes
  | .branch condition thenBlock elseBlock =>
    condition.notes ++ Emitted.allNotes thenBlock ++ Emitted.allNotes elseBlock
  | .result value => value.notes
  | _ => []

def Emitted.allNotes : List Emitted → List DataType
  | [] => []
  | code :: rest => code.notes ++ Emitted.allNotes rest

end

def Machine.notes (machine : Machine) : List DataType :=
  machine.states.flatMap fun state => Emitted.allNotes state.statements

namespace Emitted

theorem allNotes_append (first second : List Emitted) :
    allNotes (first ++ second) = allNotes first ++ allNotes second := by
  induction first with
  | nil => rfl
  | cons code rest ih => rw [List.cons_append, allNotes, ih, allNotes, List.append_assoc]

theorem allNotes_map {make : Variable → Emitted} (bare : ∀ info, (make info).notes = [])
    (infos : List Variable) : allNotes (infos.map make) = [] := by
  induction infos with
  | nil => rfl
  | cons info rest ih => rw [List.map_cons, allNotes, bare, ih]; rfl

end Emitted

section Written

variable {symbols : Symbols} {route : Route} {body : Body} {analysis : Analysis} {region : Region}

theorem Expr.notes_of_plain {e : Expr} (plain : e.plain = true) : e.untyped.notes = [] := by
  rw [Expr.plain_bare plain, e.notes_bare]

theorem Emit.statementCode_notes {s : Stmt} (plain : s.plain = true) :
    Emitted.allNotes (statementCode s) = [] := by
  unfold statementCode
  split
  · rfl
  · rw [Emitted.allNotes, Emitted.notes, s.plain_bare plain, s.notes_bare]
    rfl

theorem Route.Fits.code_notes {leave : Site → Expr → List Emitted} (fits : route.Fits symbols)
    (leaves : ∀ site payload, payload.plain = true → Emitted.allNotes (leave site payload) = []) :
    Emitted.allNotes (route.code leave) = [] := by
  induction route with
  | stop => rfl
  | plain site statement rest ih =>
      cases statement with
      | none => exact ih fits.2.2
      | some s =>
          rw [Route.code, Emitted.allNotes_append, Emit.statementCode_notes fits.2.1.plain,
            ih fits.2.2]
          rfl
  | suspend site payload rest _ => exact leaves site payload fits.2.2.1.plain
  | branch site condition thenRoute elseRoute rest thenIH elseIH ih =>
      obtain ⟨_, _, test, fitsThen, fitsElse, fitsRest⟩ := fits
      have behind : Emitted.allNotes (if thenRoute.passes || elseRoute.passes then rest.code leave
          else []) = [] := by
        split
        · exact ih fitsRest
        · rfl
      rw [Route.code, Emitted.allNotes, Emitted.notes, Expr.notes_of_plain test.plain,
        thenIH fitsThen, elseIH fitsElse, behind]
      rfl

theorem Region.state_notes (fits : route.Fits body.symbols) :
    Emitted.allNotes (region.state body analysis route).statements = [] := by
  have arrival : Emitted.allNotes (region.arrival body analysis) = [] := by
    unfold Region.arrival
    split
    · exact Emitted.allNotes_map (fun _ => rfl) _
    · exact Emitted.allNotes_map (fun _ => rfl) _
  have leaving : ∀ site payload, Expr.plain payload = true →
      Emitted.allNotes (region.leaving body analysis site payload) = [] := by
    intro site payload plain
    rw [Region.leaving, Emitted.allNotes_append, Emitted.allNotes_map fun _ => rfl]
    simp [Emitted.allNotes, Emitted.notes, Expr.notes_of_plain plain]
  have epilogue : ∀ flow, Emitted.allNotes (Emit.epilogue flow) = [] := fun flow => by
    cases flow <;> rfl
  rw [Region.state, Emitted.allNotes_append, arrival, Region.conduct, Emitted.allNotes_append,
    fits.code_notes leaving, epilogue, List.append_nil, List.append_nil]

end Written

theorem Route.Fits.part {symbols : Symbols} {route : Route} (fits : route.Fits symbols)
    (region : Region) : (region.part route).Fits symbols := by
  unfold Region.part
  cases search : route.tails.find? fun tail => tail.first? = some region.start with
  | none => trivial
  | some tail => exact fits.of_mem_tails (List.mem_of_find?_eq_some search)

theorem Body.build_plain {settings : Settings} {arity : Nat} {e : Expr} {body : Body}
    (done : Body.build settings arity e = .ok body) :
    ∀ id node, body.graph.node? id = some node → node.kind.plain = true := by
  intro id node present
  obtain ⟨_, _, _, _, _, built⟩ := Body.build_ok done
  obtain ⟨_, _, fits⟩ := built.laid.fragment built.fits (built.mem_ids present) present
  exact fits.plain

def Source.bare (source : Source) : Source := { source with function := source.function.bare }

/-- Type notes decide what is accepted and nothing else. Where two coroutines that are equal but for
notes are both accepted, their machines are equal, and no expression in them has a note. -/
theorem Source.notes_only_accept {source other : Source} {settings : Settings}
    {lowered lowered' : Lowered} (same : source.bare = other.bare)
    (done : source.lower settings = .ok lowered) (done' : other.lower settings = .ok lowered') :
    lowered'.machine = lowered.machine ∧ lowered.machine.notes = [] := by
  constructor
  · obtain ⟨body, built, done⟩ := ok_bind done
    obtain ⟨analysis, analysed, done⟩ := ok_bind done
    obtain ⟨machine, emits, done⟩ := ok_bind done
    obtain ⟨body', built', done'⟩ := ok_bind done'
    obtain ⟨analysis', analysed', done'⟩ := ok_bind done'
    obtain ⟨machine', emits', done'⟩ := ok_bind done'
    cases done
    cases done'
    obtain ⟨named, arity, literals⟩ := Source.mk.inj same
    rw [← arity] at built'
    rw [← named] at emits'
    have bodies := Body.build_bare literals built built'
    have analyses : body'.analyze settings = body.analyze settings :=
      calc body'.analyze settings
        _ = body'.bare.analyze settings := (body'.analyze_bare settings).symm
        _ = body.bare.analyze settings := by rw [bodies]
        _ = body.analyze settings := body.analyze_bare settings
    cases analysed'.symm.trans (analyses.trans analysed)
    -- Erasing notes changes nothing here, since what is in a graph has no function literals.
    have machines : body'.emit analysis settings source.name =
        body.emit analysis settings source.name :=
      calc body'.emit analysis settings source.name
        _ = body'.bare.emit analysis settings source.name :=
          (Body.emit_bare (Body.build_plain built') settings source.name).symm
        _ = body.bare.emit analysis settings source.name := by rw [bodies]
        _ = body.emit analysis settings source.name :=
          Body.emit_bare (Body.build_plain built) settings source.name
    rw [machines, emits] at emits'
    exact (Except.ok.inj emits').symm
  · obtain ⟨_, _, _, route, _, traced⟩ := Source.lower_traced done
    rw [Machine.notes, traced.emitted.states, List.flatMap_map, List.flatMap_eq_nil_iff]
    intro region _
    exact Region.state_notes (traced.built.fits.part region)

theorem Source.notes_only_accept_fork : Source.fork.function.notes ≠ [] ∧
    Source.fork.bare.bare = Source.fork.bare ∧ ∃ lowered lowered',
      Source.fork.bare.lower {} = .ok lowered ∧ Source.fork.lower {} = .ok lowered' ∧
      lowered.machine.states ≠ [] ∧ lowered'.machine = lowered.machine ∧
      lowered.machine.notes = [] := by
  have seen : (do
      let lowered ← Source.fork.bare.lower {}
      let _ ← Source.fork.lower {}
      return lowered.machine.states.isEmpty) = .ok false := by cbv
  obtain ⟨lowered, done, seen⟩ := ok_bind seen
  obtain ⟨lowered', done', seen⟩ := ok_bind seen
  have same : Source.fork.bare.bare = Source.fork.bare := rfl
  obtain ⟨equal, bare⟩ := Source.notes_only_accept same done done'
  exact ⟨List.cons_ne_nil _ _, same, lowered, lowered', done, done',
    List.isEmpty_eq_false_iff.mp (Except.ok.inj seen), equal, bare⟩

end Resumable
