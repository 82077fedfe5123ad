import Resumable.Proofs.Lowered
import Resumable.Proofs.Lowering.Listed
import Resumable.Proofs.Machine.Turns
import Resumable.Proofs.Region.Members

/-! What crosses a suspension: the variables that a region needs from before it, those that its
suspensions store for the regions behind, and the slots that both are kept in. -/

namespace Resumable

namespace Graph

variable {graph : Graph} {start last follower : NodeId} {ids : List NodeId} {var : VarId}

/-- What is demanded behind an edge is demanded wherever a way leads to that edge, unless the way or
the node at the end of it declares it. -/
theorem Demands.across (demands : graph.Demands follower var)
    (edge : follower ∈ graph.successors last) (path : graph.Path start last ids)
    (kept : ∀ node, graph.node? last = some node → node.declares ≠ some var)
    (unmade : ¬ graph.DeclaredAmong ids.dropLast var) : graph.Demands start var := by
  refine (demands.before (.step edge (.here follower)) ?_).before path unmade
  rintro ⟨id, member, node, present, declares⟩
  obtain rfl : id = last := by simpa using member
  exact kept node present declares

end Graph

section Parts

variable {body : Body} {analysis : Analysis} {settings : Settings} {function : Function}
  {infos : List Variable} {s' : Stmt} {route tail : Route} {id : RegionId} {region next : Region}
  {context behind : Context} {var : VarId}

theorem Body.Built.demanded_at_head (built : body.Built function infos s' route) {head : NodeId}
    (starts : body.graph.head = some head) (demands : body.graph.Demands head var) :
    var ∈ body.params := by
  obtain ⟨before, behind, _, params, leads⟩ := built.leads
  obtain ⟨last, ids, node, path, present, reads, unmade⟩ := demands
  rw [built.head] at starts
  exact params var (leads.known_of_path built.laid starts path present reads unmade).1

/-- The variables of a list have entries, and places on the frame that they share with no other
variable of the list. -/
structure Symbols.Seats (symbols : Symbols) (vars : List VarId) : Prop where
  inside : ∀ var ∈ vars, ∃ info, symbols.variables.get? var = some info ∧
    info.slot.index < symbols.variables.frame.on info.slot.stack
  apart : ∀ var ∈ vars, ∀ other ∈ vars, var ≠ other → ∀ info info',
    symbols.variables.get? var = some info → symbols.variables.get? other = some info' →
      info.slot ≠ info'.slot

/-- What a suspension of a region has stored for the region that it resumes in: all that is needed
there, but for what is in its slot already. Whatever is stored has a value by then, on every way
from the start of the region and on every way from the head. -/
structure Region.Stores (body : Body) (everything : Bool) (region next : Region) (exit : Node)
    (stored : List Variable) : Prop where
  visible : ∀ var ∈ next.liveIn, var ∈ body.symbols.scopes.visible exit.scope ∧
    ∃ info, body.symbols.variables.get? var = some info ∧ info.id = var
  kept : ∀ info, info ∈ stored ↔ body.symbols.variables.get? info.id = some info ∧
    info.id ∈ next.liveIn ∧ (everything = true ∨ info.mutable = true ∨
      body.graph.DeclaredAmong region.nodes info.id)
  valued : ∀ info ∈ stored, ∀ ids, body.graph.Path region.start exit.id ids →
    body.graph.DeclaredAmong ids.dropLast info.id ∨ info.id ∈ region.liveIn
  since : ∀ info ∈ stored, ∀ head ids, body.graph.head = some head →
    body.graph.Path head exit.id ids →
      body.graph.DeclaredAmong ids.dropLast info.id ∨ info.id ∈ body.params

variable (part : analysis.Part body route id region tail context behind)
  (built : body.Built function infos s' route)

include part built

theorem Analysis.Part.laid : Route.Laid body.graph none tail := built.laid.of_mem_tails part.inside

theorem Analysis.Part.demands_iff (var : VarId) :
    var ∈ region.liveIn ↔ body.graph.Demands region.start var := by
  rw [part.live, Route.demands_iff part.leads part.older (part.laid built) part.covers.start]

theorem Analysis.Part.seats : body.symbols.Seats region.liveIn.elems := by
  obtain ⟨site, inside, known⟩ := part.leads.known_first part.covers.start
  have fits := part.fits built
  constructor
  · intro var live
    have small := fits.lt_of_needs built.sound part.leads ((part.live var).mp live)
    obtain ⟨info, found⟩ := Symbols.exists_info small
    exact ⟨info, found, built.sound.framed var info found⟩
  · intro var live other live' differ info info' found found' same
    have here := known var ((part.live var).mp live)
    have here' := known other ((part.live other).mp live')
    exact differ ((fits.site inside).apart var here other here' info info' found found' same)

section Halts

variable {halt : Halt} (halts : halt ∈ tail.halts)

include halts

theorem Analysis.Part.halt_node : ∃ node, body.graph.node? halt.site.id = some node ∧
    node.isSuspension = true ∧ node.id = halt.site.id ∧ node.scope = halt.site.scope ∧
    node.declares = none ∧ node.successors = halt.rest.first?.toList := by
  obtain ⟨node, present, is⟩ := Route.halt_at (part.laid built) halts
  exact ⟨node, present, congrArg NodeKind.isSuspension is.kind, is.id, is.scope,
    is.declares.trans (part.halt_fits built halts).2.1, is.successors⟩

variable (covers : analysis.Covers body settings route)

include covers

theorem Analysis.Part.kept_slots (listed : body.symbols.Listed) :
    ((region.kept body analysis halt.site).map Variable.slot).Nodup := by
  refine List.Nodup.map_on ?_ ?_
  · intro info kept other kept' same
    obtain ⟨found, needs, _⟩ := (part.mem_kept built covers halts).mp kept
    obtain ⟨found', needs', _⟩ := (part.mem_kept built covers halts).mp kept'
    exact part.kept_apart built halts found needs found' needs' same
  · have once : (body.symbols.infos (body.symbols.scopes.visible halt.site.scope)).Nodup := by
      refine (listed.visible_nodup built.sound.rooted _).filterMap fun var other info here there => ?_
      exact (built.sound.numbered var info here).symm.trans (built.sound.numbered other info there)
    rw [Region.kept, Variable.sortBySlot_eq]
    exact (List.perm_insertionSort _ _).nodup_iff.mpr (once.filter _)

theorem Analysis.Part.kept_complete (last : halt.rest.first? = none) :
    region.kept body analysis halt.site = [] := by
  refine List.eq_nil_iff_forall_not_mem.mpr fun info kept => ?_
  obtain ⟨_, needs, _⟩ := (part.mem_kept built covers halts).mp kept
  have read := needs.1
  rw [Route.first?_eq_none.mp last] at read
  cases read

theorem Analysis.Part.stores {starts found : List NodeId} {node : Node} {last behind' : Context}
    (walked : region.Walked body.graph starts found) {number : RegionId}
    (further : analysis.Part body route number next halt.rest last behind')
    (present : body.graph.node? halt.site.id = some node) :
    region.Stores body settings.persistImmutable next node
      (region.kept body analysis halt.site) := by
  obtain ⟨node', present', _, same, scope, declares, successors⟩ := part.halt_node built halts
  obtain rfl := Option.some.inj (present.symm.trans present')
  have edge : next.start ∈ body.graph.successors halt.site.id := by
    rw [Graph.successors_of_node? present, successors, further.covers.start]
    exact List.mem_singleton_self _
  have demanded : ∀ info ∈ region.kept body analysis halt.site,
      body.graph.Demands next.start info.id := by
    intro info kept
    obtain ⟨_, needs, _⟩ := (part.mem_kept built covers halts).mp kept
    exact (further.demands_iff built info.id).mp ((further.live info.id).mpr needs)
  have before : ∀ info ∈ region.kept body analysis halt.site, ∀ start ids,
      body.graph.Path start node.id ids → ¬ body.graph.DeclaredAmong ids.dropLast info.id →
        body.graph.Demands start info.id := by
    intro info kept start ids path unmade
    refine (demanded info kept).across edge (same ▸ path) (fun other there => ?_) unmade
    rw [← Option.some.inj (present.symm.trans there), declares]
    exact (Option.some_ne_none _).symm
  refine ⟨fun var live => ?_, fun info => ?_, fun info kept ids path => ?_,
    fun info kept head ids starts path => ?_⟩
  · have needs := (further.live var).mp live
    have known := List.mem_of_mem_filter (part.known_behind built halts needs)
    have seen := (part.halt_fits built halts).1.seen var known
    obtain ⟨info, entry⟩ := Symbols.exists_info (Symbols.lt_of_mem_visible built.sound seen)
    exact ⟨scope ▸ seen, info, entry, built.sound.numbered var info entry⟩
  · rw [part.mem_kept built covers halts, covers.persistImmutable, ← further.live,
      walked.mem_declared (part.laid built) part.covers]
  · by_cases made : body.graph.DeclaredAmong ids.dropLast info.id
    · exact .inl made
    · exact .inr ((part.demands_iff built info.id).mpr (before info kept _ ids path made))
  · by_cases made : body.graph.DeclaredAmong ids.dropLast info.id
    · exact .inl made
    · exact .inr (built.demanded_at_head starts (before info kept head ids path made))

end Halts

end Parts

variable {settings : Settings} {arity : Nat} {e : Expr} {body : Body}

/-- A region needs the variables that its graph demands at its start, the edges behind suspensions
included, and no others. The entry region needs nothing but parameters. -/
theorem Body.build_live (done : Body.build settings arity e = .ok body) (settings' : Settings) :
    ∃ analysis, body.analyze settings' = .ok analysis ∧
      ∀ id region, analysis.region? id = some region →
        (∀ var, var ∈ region.liveIn ↔ body.graph.Demands region.start var) ∧
        (id = 0 → ∀ var ∈ region.liveIn, var ∈ body.params) := by
  obtain ⟨function, infos, s', route, _, built⟩ := Body.build_ok done
  obtain ⟨analysis, analysed, covers⟩ := built.analyze settings'
  refine ⟨analysis, analysed, fun id region present => ?_⟩
  obtain ⟨tail, context, behind, part⟩ := built.part_of_region covers present
  refine ⟨part.demands_iff built, fun zero var live => ?_⟩
  exact part.entry zero var (((part.live var).mp live).known part.leads)

/-- A coroutine with a variable in each of two branches that is still needed behind a suspension. The
two are never needed together and lie in one slot. -/
def Source.siblings : Source :=
  let hand (e : Expr) : Stmt := .evaluate (.suspend e {}) {}
  let side (name : String) : Stmt :=
    .block [.declare name .int false (.int 1 {}) {}, hand (.reference name {}),
      hand (.binary .add (.reference name {}) (.reference "n" {}) {})] {}
  { name := "siblings"
    arity := 2
    function := .function [⟨"c", .bool, {}⟩, ⟨"n", .int, {}⟩] .int
      (.branch (.reference "c" {}) (side "a") (some (side "b")) {}) {} }

theorem Body.build_live_siblings : ∃ body analysis region,
    Body.build {} Source.siblings.arity Source.siblings.function = .ok body ∧
    body.analyze {} = .ok analysis ∧ analysis.region? 1 = some region ∧
    body.graph.Demands region.start 1 ∧ body.graph.Demands region.start 2 ∧
    ¬ body.graph.Demands region.start 3 := by
  have seen : (do
      let body ← Body.build {} Source.siblings.arity Source.siblings.function
      let analysis ← body.analyze {}
      return (analysis.region? 1).map fun region : Region => region.liveIn.elems) =
        .ok (some [1, 2]) := by cbv
  obtain ⟨body, done, seen⟩ := ok_bind seen
  obtain ⟨analysis, analysed, seen⟩ := ok_bind seen
  obtain ⟨region, present, live⟩ := Option.map_eq_some_iff.mp (Except.ok.inj seen)
  obtain ⟨analysis', analysed', regions⟩ := Body.build_live done {}
  cases analysed.symm.trans analysed'
  have demanded := (regions 1 region present).1
  simp only [VarSet.mem_iff, live] at demanded
  exact ⟨body, analysis, region, done, analysed, present, (demanded 1).mp (by decide),
    (demanded 2).mp (by decide), fun impossible => absurd ((demanded 3).mpr impossible) (by decide)⟩

/-- At each exit of a region exactly those variables are stored that the region behind needs and
that are not in their slots already. Where the machine completes, nothing is. -/
theorem Body.build_stores (done : Body.build settings arity e = .ok body) (settings' : Settings) :
    ∃ analysis, body.analyze settings' = .ok analysis ∧
      ∀ id region, analysis.region? id = some region →
        ∀ exit target, (exit, target) ∈ region.exits → ∃ node stored,
          body.graph.node? exit = some node ∧ node.isSuspension = true ∧
          analysis.persisted body region node = .ok stored ∧
          (target = .complete → stored = []) ∧
          ∀ number, target = .region number → ∃ next, analysis.region? number = some next ∧
            region.Stores body settings'.persistImmutable next node stored := by
  obtain ⟨function, infos, s', route, _, built⟩ := Body.build_ok done
  obtain ⟨analysis, analysed, covers⟩ := built.analyze settings'
  refine ⟨analysis, analysed, fun id region present exit target leaves => ?_⟩
  obtain ⟨tail, context, behind, part⟩ := built.part_of_region covers present
  obtain ⟨found, walked⟩ := Body.analyze_walked analysed present
  obtain ⟨halt, halts, rfl, rfl⟩ := walked.halt_of_exit (part.laid built) part.covers leaves
  obtain ⟨node, there, suspends, same, scope, _⟩ := part.halt_node built halts
  refine ⟨node, region.kept body analysis halt.site, there, suspends,
    Analysis.persisted_eq built.sound same scope, ?_, ?_⟩
  · intro complete
    apply part.kept_complete built halts covers
    cases starts : halt.rest.first? with
    | none => rfl
    | some => simp [Route.target, starts] at complete
  · intro number follows
    cases starts : halt.rest.first? with
    | none => simp [Route.target, starts] at follows
    | some start =>
        obtain ⟨next, _, _, further⟩ := part.next built covers halts starts
        simp only [Route.target, starts, Target.region.injEq] at follows
        subst follows
        exact ⟨next, further.present, part.stores built halts covers walked further there⟩

theorem Body.build_stores_siblings : ∃ body analysis entry next node stored,
    Body.build {} Source.siblings.arity Source.siblings.function = .ok body ∧
    body.analyze {} = .ok analysis ∧ analysis.region? 0 = some entry ∧
    analysis.region? 1 = some next ∧ (3, .region 1) ∈ entry.exits ∧
    body.graph.node? 3 = some node ∧ analysis.persisted body entry node = .ok stored ∧
    next.liveIn.elems = [1, 2] ∧ stored.map Variable.id = [2] ∧
    entry.Stores body false next node stored := by
  have seen : (do
      let body ← Body.build {} Source.siblings.arity Source.siblings.function
      let analysis ← body.analyze {}
      let node ← body.graph.node 3
      return ((analysis.region? 0).map fun entry : Region =>
          (entry.exits, (analysis.persisted body entry node).map fun stored : List Variable =>
            stored.map Variable.id),
        (analysis.region? 1).map fun next : Region => next.liveIn.elems)) =
          .ok (some ([(3, .region 1), (6, .region 2)], .ok [2]), some [1, 2]) := by cbv
  obtain ⟨body, done, seen⟩ := ok_bind seen
  obtain ⟨analysis, analysed, seen⟩ := ok_bind seen
  obtain ⟨node, named, seen⟩ := ok_bind seen
  simp only [Except.ok.injEq, Prod.mk.injEq, pure, Except.pure, Option.map_eq_some_iff] at seen
  obtain ⟨⟨entry, first, exits, stores⟩, next, second, live⟩ := seen
  obtain ⟨analysis', analysed', regions⟩ := Body.build_stores done {}
  cases analysed.symm.trans analysed'
  have leaves : ((3 : NodeId), Target.region 1) ∈ entry.exits := by
    rw [exits]
    exact List.mem_cons_self
  obtain ⟨node', stored, there, _, persisted, _, follows⟩ := regions 0 entry first 3 _ leaves
  obtain ⟨next', second', stored'⟩ := follows 1 rfl
  cases second.symm.trans second'
  rw [Graph.node, there] at named
  cases named
  rw [persisted] at stores
  exact ⟨body, analysis, entry, next, node, stored, done, analysed, first, second, leaves, there,
    persisted, live, Except.ok.inj stores, stored'⟩

/-- Slots are shared only by variables that are never needed together: those that a region needs,
and those that one suspension stores, all have places of their own within the frame. -/
theorem Body.build_slots (done : Body.build settings arity e = .ok body) (settings' : Settings) :
    ∃ analysis, body.analyze settings' = .ok analysis ∧
      ∀ id region, analysis.region? id = some region → body.symbols.Seats region.liveIn.elems ∧
        ∀ exit target, (exit, target) ∈ region.exits → ∃ node stored,
          body.graph.node? exit = some node ∧ analysis.persisted body region node = .ok stored ∧
          (stored.map Variable.slot).Nodup ∧
          ∀ info ∈ stored, info.slot.index < body.symbols.variables.frame.on info.slot.stack := by
  obtain ⟨function, infos, s', route, _, built⟩ := Body.build_ok done
  obtain ⟨analysis, analysed, covers⟩ := built.analyze settings'
  refine ⟨analysis, analysed, fun id region present => ?_⟩
  obtain ⟨tail, context, behind, part⟩ := built.part_of_region covers present
  refine ⟨part.seats built, fun exit target leaves => ?_⟩
  obtain ⟨found, walked⟩ := Body.analyze_walked analysed present
  obtain ⟨halt, halts, rfl, rfl⟩ := walked.halt_of_exit (part.laid built) part.covers leaves
  obtain ⟨node, there, _, same, scope, _⟩ := part.halt_node built halts
  refine ⟨node, region.kept body analysis halt.site, there,
    Analysis.persisted_eq built.sound same scope,
    part.kept_slots built halts covers (Body.build_listed done), fun info kept => ?_⟩
  exact built.sound.framed info.id info ((part.mem_kept built covers halts).mp kept).1

theorem Body.build_slots_siblings : ∃ body analysis inThen inElse info info',
    Body.build {} Source.siblings.arity Source.siblings.function = .ok body ∧
    body.analyze {} = .ok analysis ∧ analysis.region? 1 = some inThen ∧
    analysis.region? 2 = some inElse ∧ inThen.liveIn.elems = [1, 2] ∧
    inElse.liveIn.elems = [1, 3] ∧ body.symbols.variables.get? 2 = some info ∧
    body.symbols.variables.get? 3 = some info' ∧ info.slot = info'.slot ∧
    body.symbols.Seats inThen.liveIn.elems ∧ body.symbols.Seats inElse.liveIn.elems := by
  have seen : (do
      let body ← Body.build {} Source.siblings.arity Source.siblings.function
      let analysis ← body.analyze {}
      return ((analysis.region? 1).map fun region : Region => region.liveIn.elems,
        (analysis.region? 2).map fun region : Region => region.liveIn.elems,
        (body.symbols.variables.get? 2).map Variable.slot,
        (body.symbols.variables.get? 3).map Variable.slot)) =
          .ok (some [1, 2], some [1, 3], some ⟨.value, 2⟩, some ⟨.value, 2⟩) := by cbv
  obtain ⟨body, done, seen⟩ := ok_bind seen
  obtain ⟨analysis, analysed, seen⟩ := ok_bind seen
  simp only [Except.ok.injEq, Prod.mk.injEq, pure, Except.pure, Option.map_eq_some_iff] at seen
  obtain ⟨⟨inThen, present, live⟩, ⟨inElse, present', live'⟩, ⟨info, found, slot⟩, info', found',
    slot'⟩ := seen
  obtain ⟨analysis', analysed', regions⟩ := Body.build_slots done {}
  cases analysed.symm.trans analysed'
  exact ⟨body, analysis, inThen, inElse, info, info', done, analysed, present, present', live, live',
    found, found', slot.trans slot'.symm, (regions 1 inThen present).1,
    (regions 2 inElse present').1⟩

end Resumable
