import Resumable.Lowered
import Resumable.Proofs.Machine.Code

/-! The machine of a body: one state for every region, with what it needs loaded first. Emission
never fails on the analysis of a body that was built. -/

namespace Resumable

section State

variable {body : Body} {analysis : Analysis} {region : Region} {tail : Route}

def Region.arrival (body : Body) (analysis : Analysis) (region : Region) : List Emitted :=
  if region.id = 0 then (body.symbols.infos analysis.entryStores).map Variable.store
  else (body.symbols.infos region.liveIn.elems).map Variable.load

def Region.conduct (body : Body) (analysis : Analysis) (region : Region) (tail : Route) :
    List Emitted :=
  tail.code (region.leaving body analysis) ++ Emit.epilogue (tail.flow none)

def Region.state (body : Body) (analysis : Analysis) (region : Region) (tail : Route) : StateBody :=
  ⟨region.id, region.arrival body analysis ++ region.conduct body analysis tail⟩

theorem Emit.prologue_eq
    (stored : ∀ var : Nat, var ∈ analysis.entryStores → var < body.symbols.variables.size)
    (live : ∀ var : Nat, var ∈ region.liveIn.elems → var < body.symbols.variables.size) :
    prologue body analysis region = .ok (region.arrival body analysis) := by
  rw [prologue, Region.arrival]
  split
  · exact Symbols.mapM_entry Variable.store stored
  · exact Symbols.mapM_entry Variable.load live

theorem Body.emitState_eq (sound : body.symbols.Sound) (laid : Route.Laid body.graph none tail)
    (start : tail.first? = some region.start) (distinct : tail.ids.Nodup)
    (small : tail.ids.length ≤ body.graph.size)
    (exits : ∀ halt ∈ tail.halts, (region.exits.lookup halt.site.id).isSome)
    (stored : ∀ var : Nat, var ∈ analysis.entryStores → var < body.symbols.variables.size)
    (live : ∀ var : Nat, var ∈ region.liveIn.elems → var < body.symbols.variables.size) :
    body.emitState analysis region =
      (.ok (region.state body analysis tail), tail.front.map Site.id) := by
  have written : Emit.onward body analysis region (body.graph.size + 1) (tail.first?.or none) none
      [] = _ := Emit.onward_eq _ sound laid exits distinct (fun _ _ old => by cases old)
    (fun _ _ same => by cases same) (Nat.lt_succ_of_le small)
  rw [start] at written
  change Emit.state body analysis region [] = _
  rw [Emit.state, Emit.require_bind (Emit.prologue_eq stored live), Emit.bind_apply,
    show Emit.fromNode body analysis region _ region.start none [] = _ from written]
  rw [Region.state, Region.conduct, ← List.append_assoc]
  rfl

end State

section States

variable {body : Body} {analysis : Analysis} {make : Region → StateBody}

theorem Body.emitStates_ok {regions : List Region} (log : EmissionLog)
    (each : ∀ region ∈ regions, (body.emitState analysis region).1 = .ok (make region)) :
    (body.emitStates analysis regions log).1 = .ok (regions.map make) := by
  induction regions generalizing log with
  | nil => rfl
  | cons region rest ih =>
      have first := each region List.mem_cons_self
      have others := fun log => ih log fun other member => each other (List.mem_cons_of_mem _ member)
      rw [emitStates]
      rcases written : body.emitState analysis region with ⟨result, nodes⟩
      rw [written] at first
      subst first
      simp only [others, Except.map, List.map_cons]

theorem Machine.state?_map {machine : Machine} {regions : List Region}
    (states : machine.states = regions.map make) (named : ∀ region, (make region).id = region.id)
    (numbered : Region.Numbered regions) {id : Nat} {region : Region}
    (present : regions[id]? = some region) : machine.state? id = some (make region) := by
  obtain ⟨below, rfl⟩ := List.getElem?_eq_some_iff.mp present
  rw [state?, states, List.find?_eq_some_iff_getElem]
  refine ⟨?_, id, by simpa using below, by simp, fun index earlier => ?_⟩
  · simp [named, numbered id _ present]
  · have inside := Nat.lt_trans earlier below
    have name := numbered index _ (List.getElem?_eq_getElem inside)
    simp only [List.getElem_map, named, name, Bool.not_eq_true', beq_eq_false_iff_ne, ne_eq]
    exact Nat.ne_of_lt earlier

end States

section Emit

variable {body : Body} {analysis : Analysis} {settings : Settings} {function : Function}
  {infos : List Variable} {s' : Stmt} {route tail : Route}

/-- What is left of a route from the start of a region on. -/
def Region.part (route : Route) (region : Region) : Route :=
  (route.tails.find? fun tail => tail.first? = some region.start).getD .stop

theorem Region.part_eq {region : Region} (distinct : route.ids.Nodup) (inside : tail ∈ route.tails)
    (start : tail.first? = some region.start) : region.part route = tail := by
  have there : (route.tails.find? fun tail => tail.first? = some region.start).isSome :=
    List.find?_isSome.mpr ⟨tail, inside, decide_eq_true start⟩
  obtain ⟨found, search⟩ := Option.isSome_iff_exists.mp there
  rw [Region.part, search]
  exact Route.tail_eq_of_first? distinct (List.mem_of_find?_eq_some search) inside
    (by simpa using List.find?_some search) start

theorem Route.Fits.lt_of_needs (fits : route.Fits body.symbols) (sound : body.symbols.Sound)
    {before behind : Context} (leads : Route.Leads before route behind) {var : VarId}
    (needs : route.Needs var) : (var : Nat) < body.symbols.variables.size := by
  obtain ⟨site, inside, reads⟩ := Route.mem_mentions.mp needs.1
  obtain ⟨_, within⟩ := leads.within_of_mem inside
  exact Symbols.lt_of_mem_visible sound ((fits.site inside).seen var (within.reads var reads))

/-- The parts of an emitted machine. -/
structure Machine.Emitted (body : Body) (analysis : Analysis) (settings : Settings)
    (infos : List Variable) (route : Route) (machine : Machine) : Prop where
  slots : machine.slots = body.slotTable settings
  params : machine.params = infos.map fun info => ⟨info.localName, info.type⟩
  states : machine.states =
    analysis.regions.map fun region => region.state body analysis (region.part route)

theorem Body.Built.param_found (built : body.Built function infos s' route) {info : Variable}
    (member : info ∈ infos) : body.symbols.variables.get? info.id = some info := by
  obtain ⟨_, _, becomes⟩ := forall₂_right built.becomes member
  exact becomes.found

theorem Body.Built.analyze (built : body.Built function infos s' route) (settings : Settings) :
    ∃ analysis, body.analyze settings = .ok analysis ∧ analysis.Covers body settings route := by
  obtain ⟨before, behind, sound, _, leads⟩ := built.leads
  exact Body.analyze_covers settings built.laid built.head built.some_ leads sound

theorem Body.Built.lt_of_entryStores (built : body.Built function infos s' route)
    (covers : analysis.Covers body settings route) (var : Nat) (member : var ∈ analysis.entryStores) :
    var < body.symbols.variables.size := by
  rw [covers.entryStores, built.params] at member
  obtain ⟨info, known, rfl⟩ := List.mem_map.mp (List.mem_of_mem_filter member)
  exact (Array.getElem?_eq_some_iff.mp (built.param_found known)).1

theorem Body.Built.emitState (built : body.Built function infos s' route)
    (covers : analysis.Covers body settings route) {id : RegionId} {region : Region}
    (present : analysis.region? id = some region) (inside : tail ∈ route.tails)
    (starts : tail.first? = some region.start) :
    Emit.prologue body analysis region = .ok (region.arrival body analysis) ∧
      body.emitState analysis region =
        (.ok (region.state body analysis tail), tail.front.map Site.id) := by
  obtain ⟨before, behind, soundBefore, _, leads⟩ := built.leads
  have stored := built.lt_of_entryStores covers
  obtain ⟨tail', inside', e, member, first, rfl, covered⟩ := covers.splits.exists_tail present
  obtain rfl := Route.tail_eq_of_first? built.distinct inside inside' starts covered.start
  have sublist := Route.ids_sublist_of_mem_tails inside
  have small : tail.ids.length ≤ body.graph.size := by
    have subset : tail.ids ⊆ List.range body.graph.size := fun id listed =>
      List.mem_range.mpr (built.inside id (sublist.subset listed))
    have short := ((built.distinct.sublist sublist).subperm subset).length_le
    rwa [List.length_range] at short
  have live : ∀ var : Nat, var ∈ region.liveIn.elems → var < body.symbols.variables.size := by
    intro var listed
    have needs := (covers.live tail inside e member first _ present var).mp
      (VarSet.mem_iff.mpr listed)
    obtain ⟨context, _, leadsOn⟩ := leads.of_mem_tails soundBefore inside
    exact (built.fits.of_mem_tails inside).lt_of_needs built.sound leadsOn needs
  refine ⟨Emit.prologue_eq stored live, emitState_eq built.sound (built.laid.of_mem_tails inside)
    starts (built.distinct.sublist sublist) small (fun halt halts => ?_) stored live⟩
  rw [covered.exits halt halts]
  rfl

/-- The machine of a body that was built and analysed is always emitted. -/
theorem Body.emit_ok (built : body.Built function infos s' route)
    (covers : analysis.Covers body settings route) (settings' : Settings) (name : String) :
    ∃ machine, (body.emit analysis settings' name).1 = .ok machine ∧ machine.name = name ∧
      machine.Emitted body analysis settings' infos route := by
  have each : ∀ region ∈ analysis.regions, (body.emitState analysis region).1 =
      .ok (region.state body analysis (region.part route)) := by
    intro region member
    obtain ⟨id, below, rfl⟩ := List.getElem_of_mem member
    have present := List.getElem?_eq_getElem below
    obtain ⟨tail, inside, _, _, _, _, covered⟩ := covers.splits.exists_tail present
    rw [Region.part_eq built.distinct inside covered.start,
      (built.emitState covers present inside covered.start).2]
  have states := Body.emitStates_ok {} each
  have params : body.params.mapM body.machineParam =
      .ok (infos.map fun info => ⟨info.localName, info.type⟩) := by
    rw [built.params]
    refine mapM_eq (List.forall₂_map_left_iff.mpr (List.forall₂_map_right_iff.mpr ?_))
    refine List.forall₂_same.mpr fun info member => ?_
    rw [machineParam, Symbols.entry_eq (built.param_found member)]
    rfl
  rw [Body.emit]
  simp only [states, params]
  exact ⟨_, rfl, rfl, rfl, rfl, rfl⟩

theorem Machine.Emitted.state? {machine : Machine} (built : body.Built function infos s' route)
    (covers : analysis.Covers body settings route) {settings' : Settings}
    (emitted : machine.Emitted body analysis settings' infos route) {id : Nat} {region : Region}
    (present : analysis.region? id = some region) (inside : tail ∈ route.tails)
    (start : tail.first? = some region.start) :
    machine.state? id = some (region.state body analysis tail) := by
  rw [Machine.state?_map emitted.states (fun _ => rfl) covers.splits.numbered present,
    Region.part_eq built.distinct inside start]

end Emit
end Resumable
