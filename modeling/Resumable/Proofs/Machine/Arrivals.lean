import Resumable.Proofs.Eval.Arguments
import Resumable.Proofs.Lowered
import Resumable.Proofs.Machine.Resumes

/-! What a resume finds when its region begins: all that the region needs has the value that it had
when the machine was left, read back from its slot or given as an argument. -/

namespace Resumable

open Symbols

/-- All that was stored in some resumes. -/
def Instance.history (past : List Instance) : List Carried :=
  past.flatMap fun inst => inst.course.events.filterMap Event.store?

/-- An instance behind some resumes that goes on in the region of a part of the route. Whatever the
region needs has the same value in the environment of a walk over the route up to there and in the
one that the machine was left in, and was stored with it. -/
structure Instance.Ready (inst : Instance) (lowered : Lowered) (infos : List Variable)
    (route : Route) (past : List Instance) (flat : Session) (id : RegionId) (region : Region)
    (tail : Route) (context behind : Context) : Prop where
  machine : inst.machine = lowered.machine
  state : inst.state = .region id
  args : List.Forall₂ (fun info arg => Value.hasType arg info.type = true) infos inst.args
  part : lowered.analysis.Part lowered.body route id region tail context behind
  records : inst.frame.Records lowered.body.symbols.variables.frame (history past)
  entry : id = 0 → flat.env = inst.entryEnv 0
  open_ : flat.env ≠ []
  recorded : id ≠ 0 → ∀ var, tail.Needs var →
    Recorded lowered.body.symbols (history past) flat.env var
  left : id ≠ 0 → ∃ last env, past.getLast? = some last ∧
    last.course.events.getLast? = some (.leave env) ∧
    ∀ var, tail.Needs var → Recorded lowered.body.symbols (history past) env var

/-- What the arrival of a region comes to. Nothing that is needed behind the region is missing in
its slot from there on, unless the region itself makes it. -/
structure Instance.Arrives (inst : Instance) (lowered : Lowered) (past : List Instance)
    (flat : Env) (region : Region) (tail : Route) (events : List Event) (arrived : Activation) :
    Prop where
  course : Emitted.courseAll inst.machine.slots (region.arrival lowered.body lowered.analysis)
    inst.activation = ⟨events, .ok .onward, arrived⟩
  open_ : arrived.session.env ≠ []
  result : arrived.result = none
  live : Shared lowered.body.symbols region.liveIn.elems arrived.session.env flat
  records : arrived.frame.Records lowered.body.symbols.variables.frame
    (history past ++ events.filterMap Event.store?)
  recorded : ∀ halt ∈ tail.halts, ∀ var, tail.Needs var → halt.rest.Needs var →
    Recorded lowered.body.symbols (history past ++ events.filterMap Event.store?) flat var

section Arrivals

variable {lowered : Lowered} {settings : Settings} {function : Function} {infos : List Variable}
  {s' : Stmt} {route tail : Route} {inst : Instance} {past : List Instance} {flat : Session}
  {id : RegionId} {region : Region} {context behind : Context}

/-- A later region loads what it needs, each with the value it had when the machine was left. -/
theorem Instance.Ready.loads_needed (traced : lowered.Traced settings function infos s' route)
    (ready : inst.Ready lowered infos route past flat id region tail context behind)
    (later : id ≠ 0) : ∃ arrived, inst.Arrives lowered past flat.env region tail
      ((lowered.body.symbols.infos region.liveIn.elems).map fun info => .load (info.held flat.env))
      arrived := by
  have number : region.id = id := ready.part.covers.id
  have each : ∀ info ∈ lowered.body.symbols.infos region.liveIn.elems, ∃ value,
      flat.env.get? info.localName = some value ∧
        Carried.lastIn info.slot (history past) = some (info.carry value) := by
    intro info member
    obtain ⟨listed, found⟩ := (mem_infos traced.built.sound).mp member
    have needs := (ready.part.live info.id).mp (VarSet.mem_iff.mpr listed)
    obtain ⟨_, value, found', there, last⟩ := ready.recorded later info.id needs
    obtain rfl := Option.some.inj (found.symm.trans found')
    exact ⟨value, there, last⟩
  have holds : ∀ info ∈ lowered.body.symbols.infos region.liveIn.elems,
      inst.activation.frame.Holds (info.held flat.env) := by
    intro info member
    obtain ⟨value, there, last⟩ := each info member
    rw [Variable.held, there]
    exact ready.records.holds _ _ last
  have loaded := Emitted.loads_course inst.machine.slots [] holds fun info member =>
    (traced.built.sound.packed _ info ((mem_infos traced.built.sound).mp member).2).2
  have started : inst.activation.session.env = .initial := by
    simp [Instance.activation, ready.state, Target.region?, Instance.entryEnv, later]
  have some_ : inst.activation.session.env ≠ [] := started ▸ List.cons_ne_nil _ _
  have none_ : ((lowered.body.symbols.infos region.liveIn.elems).map fun info =>
      Event.load (info.held flat.env)).filterMap Event.store? = [] := by
    simp [Event.store?]
  refine ⟨inst.activation.withSession { inst.activation.session with
      env := inst.activation.session.env.take flat.env (lowered.body.symbols.infos region.liveIn.elems) },
    ?_, Env.take_ne_nil flat.env some_, rfl, ?_, ?_, ?_⟩
  · rw [Region.arrival, number, if_neg later, ← List.append_nil (List.map Variable.load _), loaded]
    exact congrArg (Course.mk · _ _) (List.append_nil _)
  · intro var listed
    have needs := (ready.part.live var).mp (VarSet.mem_iff.mpr listed)
    obtain ⟨info, value, found, there, _⟩ := ready.recorded later var needs
    refine ⟨info, value, found, ?_, there⟩
    have known := List.mem_map_of_mem (f := Variable.localName) ((mem_infos traced.built.sound).mpr
      ⟨(traced.built.sound.numbered var info found).symm ▸ listed,
        (traced.built.sound.numbered var info found).symm ▸ found⟩)
    rw [Activation.withSession_session, Env.get?_take flat.env some_, if_pos known, there]
    rfl
  · rw [none_, List.append_nil]
    exact ready.records
  · rw [none_, List.append_nil]
    exact fun _ _ var needs _ => ready.recorded later var needs

theorem Instance.Ready.entryEnv (traced : lowered.Traced settings function infos s' route)
    (ready : inst.Ready lowered infos route past flat id region tail context behind) :
    inst.entryEnv 0 = defineAll .initial (infos.map Variable.localName) inst.args := by
  rw [Instance.entryEnv, if_pos rfl, ready.machine, traced.emitted.params, List.map_map]
  rfl

theorem Instance.Ready.argument (traced : lowered.Traced settings function infos s' route)
    (ready : inst.Ready lowered infos route past flat id region tail context behind)
    {info : Variable} (member : info ∈ infos) : ∃ arg,
      (inst.entryEnv 0).get? info.localName = some arg ∧ Value.hasType arg info.type = true := by
  have values := get?_defineAll (List.cons_ne_nil [] []) traced.built.locals
    ((List.length_map ..).trans ready.args.length_eq)
  have both : List.Forall₂ (fun (info : Variable) arg =>
      (inst.entryEnv 0).get? info.localName = some arg ∧ Value.hasType arg info.type = true) infos
        inst.args := by
    refine List.forall₂_iff_zip.mpr ⟨ready.args.length_eq, fun member => ⟨?_, ?_⟩⟩
    · rw [ready.entryEnv traced]
      exact List.forall₂_zip (List.forall₂_map_left_iff.mp values) member
    · exact List.forall₂_zip ready.args member
  obtain ⟨arg, _, fits⟩ := forall₂_left both member
  exact ⟨arg, fits⟩

theorem Lowered.Traced.params (traced : lowered.Traced settings function infos s' route)
    {var : VarId} (member : var ∈ lowered.body.params) : ∃ info ∈ infos, info.id = var ∧
      lowered.body.symbols.variables.get? var = some info := by
  rw [traced.built.params] at member
  obtain ⟨info, inside, rfl⟩ := List.mem_map.mp member
  exact ⟨info, inside, rfl, traced.built.param_found inside⟩

theorem Lowered.Traced.mem_entryStores (traced : lowered.Traced settings function infos s' route)
    {info : Variable} (member : info ∈ lowered.body.symbols.infos lowered.analysis.entryStores) :
    info ∈ infos := by
  obtain ⟨listed, found⟩ := (mem_infos traced.built.sound).mp member
  rw [traced.covers.entryStores] at listed
  obtain ⟨info', inside, _, found'⟩ := traced.params (List.mem_of_mem_filter listed)
  exact Option.some.inj (found'.symm.trans found) ▸ inside

theorem Instance.Ready.packs_entry (traced : lowered.Traced settings function infos s' route)
    (ready : inst.Ready lowered infos route past flat 0 region tail context behind) :
    (inst.activation.frame.saveAll ((lowered.body.symbols.infos lowered.analysis.entryStores).map
      (Variable.held flat.env))).fault = none := by
  refine Option.eq_none_iff_forall_ne_some.mpr fun fault failed => ?_
  obtain ⟨info, inside, unfit, _⟩ := traced.built.sound.saveAll_unfit
    (fun info member => ((mem_infos traced.built.sound).mp member).2) failed
  obtain ⟨arg, there, fits⟩ := ready.argument traced (traced.mem_entryStores inside)
  rw [Variable.held, ready.entry rfl, there] at unfit
  exact absurd (unfit.symm.trans fits) Bool.false_ne_true

theorem Instance.Ready.stores_entry (traced : lowered.Traced settings function infos s' route)
    (ready : inst.Ready lowered infos route past flat 0 region tail context behind) :
    ∃ arrived, inst.Arrives lowered past flat.env region tail
      ((lowered.body.symbols.infos lowered.analysis.entryStores).map fun info =>
        .store (info.held flat.env)) arrived := by
  have number : region.id = 0 := ready.part.covers.id
  have sound := traced.built.sound
  have started : inst.activation.session.env = flat.env := by
    rw [ready.entry rfl]
    simp [Instance.activation, ready.state, Target.region?]
  have below : ∀ info ∈ lowered.body.symbols.infos lowered.analysis.entryStores,
      info.slot.index < lowered.body.symbols.variables.frame.on info.slot.stack := fun info member =>
    sound.framed _ info ((mem_infos sound).mp member).2
  have values : ∀ info ∈ lowered.body.symbols.infos lowered.analysis.entryStores,
      ∃ value, inst.activation.session.env.get? info.localName = some value := by
    intro info member
    obtain ⟨arg, there, _⟩ := ready.argument traced (traced.mem_entryStores member)
    exact ⟨arg, by rw [started, ready.entry rfl, there]⟩
  have packs := ready.packs_entry traced
  have stores : ((lowered.body.symbols.infos lowered.analysis.entryStores).map fun info =>
      Event.store (info.held flat.env)).filterMap Event.store? =
        (lowered.body.symbols.infos lowered.analysis.entryStores).map (Variable.held flat.env) := by
    simp [List.filterMap_map, Function.comp_def, Event.store?]
  have records : inst.activation.frame.Records lowered.body.symbols.variables.frame
      (Instance.history past) := ready.records
  have course := Emitted.stores_course inst.machine.slots [] records.spans below values
  rw [started, packs] at course
  refine ⟨inst.activation.withFrame (inst.activation.frame.saveAll
      ((lowered.body.symbols.infos lowered.analysis.entryStores).map (Variable.held flat.env))).frame,
    ?_, ?_, rfl, ?_, ?_, ?_⟩
  · rw [Region.arrival, number, if_pos rfl, ← List.append_nil (List.map Variable.store _), course]
    exact congrArg (Course.mk · _ _) (List.append_nil _)
  · rw [Activation.withFrame_session, started]
    exact ready.open_
  · intro var listed
    have needs := (ready.part.live var).mp (VarSet.mem_iff.mpr listed)
    obtain ⟨info, inside, rfl, found⟩ := traced.params
      (ready.part.entry rfl var (needs.known ready.part.leads))
    obtain ⟨arg, there, _⟩ := ready.argument traced inside
    rw [Activation.withFrame_session, started, ready.entry rfl]
    exact ⟨info, arg, found, there, there⟩
  · have room : ∀ carried ∈ (lowered.body.symbols.infos lowered.analysis.entryStores).map
        (Variable.held flat.env),
        carried.slot.index < lowered.body.symbols.variables.frame.on carried.slot.stack := by
      intro carried member
      obtain ⟨info, inside, rfl⟩ := List.mem_map.mp member
      exact below info inside
    have after := records.saveAll room
    rw [stores]
    rwa [Frame.saveAll_done packs] at after
  · intro halt halts var needs behind
    obtain ⟨info, inside, rfl, found⟩ := traced.params
      (ready.part.entry rfl var (needs.known ready.part.leads))
    obtain ⟨arg, there, _⟩ := ready.argument traced inside
    have listed : info ∈ lowered.body.symbols.infos lowered.analysis.entryStores := by
      refine (mem_infos sound).mpr ⟨?_, found⟩
      rw [traced.covers.entryStores, traced.built.params]
      refine List.mem_filter.mpr ⟨List.mem_map_of_mem inside, ?_⟩
      exact ready.part.stored_at_entry traced.built traced.covers halts behind
    have held : info.held flat.env = info.carry arg := by
      rw [Variable.held, ready.entry rfl, there]
      rfl
    refine ⟨info, arg, found, ready.entry rfl ▸ there, ?_⟩
    have last : Carried.lastIn (info.held flat.env).slot ((lowered.body.symbols.infos
        lowered.analysis.entryStores).map (Variable.held flat.env)) = some (info.held flat.env) := by
      refine lastIn_of_mem ?_ (List.mem_map_of_mem listed)
      intro carried member other member' same
      obtain ⟨first, listed', rfl⟩ := List.mem_map.mp member
      obtain ⟨second, listed'', rfl⟩ := List.mem_map.mp member'
      rw [traced.built.apart first (traced.mem_entryStores listed') second
        (traced.mem_entryStores listed'') same]
    rw [stores, lastIn_append, ← held]
    exact congrArg (Option.or · _) last

theorem Instance.Ready.arrives (traced : lowered.Traced settings function infos s' route)
    (ready : inst.Ready lowered infos route past flat id region tail context behind) :
    ∃ events arrived, inst.Arrives lowered past flat.env region tail events arrived := by
  by_cases first : id = 0
  · subst first
    exact ⟨_, ready.stores_entry traced⟩
  · exact ⟨_, ready.loads_needed traced first⟩

end Arrivals
end Resumable
