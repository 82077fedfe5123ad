import Resumable.Proofs.Machine.Runs

/-! Two ways of storing: everything that is live at each suspension, or only what can have changed.
Main statement: the machines of both answer alike, resume by resume. What is left out stands in its
slot already, so both leave the same frame and fail alike. -/

namespace Resumable

open Symbols

/-- A lowering that stores everything that is live, with its machine. -/
def Lowered.persisting (lowered : Lowered) (machine : Machine) : Lowered :=
  { lowered with analysis := { lowered.analysis with persistImmutable := true }, machine }

/-- An instance that goes on with another machine. -/
def Instance.onto (inst : Instance) (machine : Machine) : Instance := { inst with machine }

/-- What some resumes answer, each with the state behind it, up to the first that fails. -/
def Instance.answers : Nat → Instance → List (Except Failure (Option Value) × Target)
  | 0, _ => []
  | count + 1, inst =>
    match inst.resume with
    | (.error failure, after) => [(.error failure, after.state)]
    | (.ok value, after) => (.ok value, after.state) :: answers count after

/-- Storing what stands in its slot already makes no difference to what a region comes to. -/
theorem Analysis.Part.turn_persisting {body : Body} {analysis : Analysis} {settings : Settings}
    {function : Function} {infos : List Variable} {s' : Stmt} {route tail : Route} {id : RegionId}
    {region : Region} {context behind : Context} {extent : Extent} {history : List Carried}
    {frame : Frame} {flat : Session}
    (part : analysis.Part body route id region tail context behind)
    (persisting : Analysis.Part { analysis with persistImmutable := true } body route id region tail
      context behind)
    (built : body.Built function infos s' route)
    (covers : Analysis.Covers { analysis with persistImmutable := true } body settings route)
    (lazily : analysis.persistImmutable = false) (open_ : flat.env ≠ [])
    (records : frame.Records extent history)
    (recorded : ∀ halt ∈ tail.halts, ∀ var, tail.Needs var → halt.rest.Needs var →
      Recorded body.symbols history flat.env var) :
    let all := region.turn body { analysis with persistImmutable := true } frame (tail.walk flat)
    let few := region.turn body analysis frame (tail.walk flat)
    all.result = few.result ∧ all.frame = few.frame := by
  intro all few
  cases result : (tail.walk flat).result with
  | error => simp only [all, few, Region.turn, result, and_self]
  | ok halt =>
      cases halt with
      | none => simp only [all, few, Region.turn, result, and_self]
      | some halt =>
          have halts := Route.mem_halts_of_walk result
          have apart : ∀ info ∈ region.kept body { analysis with persistImmutable := true } halt.site,
              ∀ other ∈ region.kept body { analysis with persistImmutable := true } halt.site,
              (info.held (tail.walk flat).after.env).slot =
                (other.held (tail.walk flat).after.env).slot → info = other := by
            intro info kept other kept' same
            obtain ⟨found, needs, _⟩ := (persisting.mem_kept built covers halts).mp kept
            obtain ⟨found', needs', _⟩ := (persisting.mem_kept built covers halts).mp kept'
            exact part.kept_apart built halts found needs found' needs' same
          have stands : ∀ info ∈ region.kept body { analysis with persistImmutable := true } halt.site,
              (info.mutable || region.declared.contains info.id) = false →
                frame.Holds (info.held (tail.walk flat).after.env) := by
            intro info kept left
            obtain ⟨found, needs, _⟩ := (persisting.mem_kept built covers halts).mp kept
            obtain ⟨fixed, outside⟩ := Bool.or_eq_false_iff.mp left
            have outside' : info.id ∉ region.declared := fun declared => by
              rw [VarSet.contains_iff.mpr declared] at outside
              cases outside
            obtain ⟨older, same⟩ := part.unchanged_behind built open_ result found needs fixed outside'
            obtain ⟨info', value, found', there, last⟩ := recorded halt halts info.id older needs
            obtain rfl := Option.some.inj (found.symm.trans found')
            rw [Variable.held, same, there]
            exact records.holds _ _ last
          obtain ⟨faults, frames⟩ := Frame.saveAll_filter (Variable.held (tail.walk flat).after.env)
            _ apart stands
          simp only [all, few, Region.turn, result]
          rw [Region.kept_filter lazily, ← faults, frames]
          split <;> exact ⟨rfl, rfl⟩

section Policies

variable {lowered : Lowered} {machine : Machine} {settings settings' : Settings}
  {function : Function} {infos : List Variable} {s' : Stmt} {route tail : Route}
  {first inst : Instance} {past : List Instance} {flat : Session} {id : RegionId} {region : Region}
  {context behind : Context} {args : List Value}

/-- A resume of either machine answers the same and leaves the same frame and state. -/
theorem Instance.Ready.resume_onto
    (traced : lowered.Traced { settings with persistImmutable := false } function infos s' route)
    (traced' : (lowered.persisting machine).Traced { settings with persistImmutable := true }
      function infos s' route)
    (named : machine.name = lowered.machine.name)
    (ready : inst.Ready lowered infos route past flat id region tail context behind) :
    (inst.onto machine).resume = (inst.resume.1, inst.resume.2.onto machine) := by
  have params : machine.params = inst.machine.params := by
    rw [ready.machine, traced.emitted.params]
    exact traced'.emitted.params
  have slots : machine.slots = inst.machine.slots := by
    rw [ready.machine, traced.emitted.slots]
    exact traced'.emitted.slots
  have entry (id : RegionId) : (inst.onto machine).entryEnv id = inst.entryEnv id := by
    rw [Instance.entryEnv, Instance.entryEnv, ← params]
    rfl
  have ready' : (inst.onto machine).Ready (lowered.persisting machine) infos route past flat id region
      tail context behind :=
    { machine := rfl
      state := ready.state
      args := ready.args
      part := ⟨ready.part.present, ready.part.start, ready.part.number, ready.part.inside,
        ready.part.covers, ready.part.live, ready.part.leads, ready.part.older, ready.part.entry⟩
      records := ready.records
      entry := fun zero => (ready.entry zero).trans (entry 0).symm
      open_ := ready.open_
      recorded := ready.recorded
      left := ready.left }
  by_cases allowed : inst.resumes < inst.maxResumes
  · obtain ⟨events, arrived, arrives⟩ := ready.arrives traced
    have begins : (inst.onto machine).activation = inst.activation := by
      rw [activation, activation, funext entry]
      rfl
    have arrives' : (inst.onto machine).Arrives (lowered.persisting machine) past flat.env region tail
        events arrived := by
      refine ⟨?_, arrives.open_, arrives.result, arrives.live, arrives.records, arrives.recorded⟩
      rw [begins, show (inst.onto machine).machine.slots = _ from slots]
      exact arrives.course
    obtain ⟨_, resumes⟩ := ready.resumes_of traced arrives
    obtain ⟨_, resumes'⟩ := ready'.resumes_of traced' arrives'
    obtain ⟨answers, frames⟩ := ready.part.turn_persisting ready'.part traced.built traced'.covers
      traced.covers.persistImmutable ready.open_ arrives.records arrives.recorded
    have answer := resumes'.answer allowed
    rw [resumes.answer allowed]
    dsimp only [Lowered.persisting] at answer
    rw [answers, frames] at answer
    rw [answer]
    cases (region.turn lowered.body lowered.analysis arrived.frame (tail.walk flat)).result <;> rfl
  · rw [resume_beyond ready.state allowed, resume_beyond ready'.state allowed, ready.machine, ← named]
    rfl

theorem Instance.Reaches.answers_onto
    (traced : lowered.Traced { settings with persistImmutable := false } function infos s' route)
    (traced' : (lowered.persisting machine).Traced { settings with persistImmutable := true }
      function infos s' route)
    (named : machine.name = lowered.machine.name)
    (started : Instance.start lowered.machine args settings' = .ok first)
    (reaches : first.Reaches past inst) (count : Nat) :
    (inst.onto machine).answers count = inst.answers count := by
  induction count generalizing past inst with
  | zero => rfl
  | succ count ih =>
      have same : (inst.onto machine).resume = (inst.resume.1, inst.resume.2.onto machine) := by
        rcases reaches.ready traced started with complete | ⟨_, _, _, _, _, _, ready⟩
        · have name : inst.machine.name = (inst.onto machine).machine.name := by
            rw [reaches.machine, start_machine started, ← named]
            rfl
          have complete' : (inst.onto machine).state = .complete := complete
          rw [resume_complete complete, resume_complete complete', name]
        · exact ready.resume_onto traced traced' named
      rw [answers, answers, same]
      rcases done : inst.resume with ⟨_ | value, after⟩
      · rfl
      · exact congrArg (_ :: ·) (ih (reaches.resume done))

end Policies

theorem Body.analyze_persisting (body : Body) (settings : Settings) :
    body.analyze { settings with persistImmutable := true } =
      (body.analyze { settings with persistImmutable := false }).map fun analysis =>
        { analysis with persistImmutable := true } := by
  rw [Body.analyze, Body.analyze]
  cases body.graph.head with
  | none => rfl
  | some head =>
      dsimp only
      cases Region.discover body.graph head <;> rfl

/-- Storing everything at each suspension, or only what can have changed, can't be told apart: the
lowerings and the starts succeed or fail alike, and so does each resume, with the same next state. -/
theorem Source.policies_agree (source : Source) (settings settings' : Settings)
    (args : List Value) :
    match source.lower { settings with persistImmutable := false },
      source.lower { settings with persistImmutable := true } with
    | .ok lazy, .ok eager =>
      match Instance.start lazy.machine args settings', Instance.start eager.machine args settings' with
      | .ok first, .ok second => ∀ count, first.answers count = second.answers count
      | .error failure, .error failure' => failure = failure'
      | _, _ => False
    | .error failure, .error failure' => failure = failure'
    | _, _ => False := by
  have same : Body.build { settings with persistImmutable := true } source.arity source.function =
      Body.build { settings with persistImmutable := false } source.arity source.function := rfl
  cases build : Body.build { settings with persistImmutable := false } source.arity
      source.function with
  | error failure =>
      rw [Source.lower, Source.lower, same, build]
      rfl
  | ok body =>
      obtain ⟨function, infos, s', route, _, built⟩ := Body.build_ok build
      obtain ⟨analysis, machine, analysed, _, named, done, traced⟩ := lower_of_built built build
      obtain ⟨analysis', machine', analysed', _, named', done', traced'⟩ :=
        lower_of_built built (same.trans build)
      rw [Body.analyze_persisting, analysed] at analysed'
      cases Except.ok.inj analysed'
      rw [done, done']
      have params : machine'.params = machine.params :=
        traced'.emitted.params.trans traced.emitted.params.symm
      have slots : machine'.slots = machine.slots :=
        traced'.emitted.slots.trans traced.emitted.slots.symm
      have starts : Instance.start machine' args settings' =
          (Instance.start machine args settings').map (Instance.onto · machine') := by
        rw [Instance.start, Instance.start, params, slots]
        cases checkArgs (machine.params.map fun param => (param.name, param.type)) args <;> rfl
      dsimp only
      rw [starts]
      cases started : Instance.start machine args settings' with
      | error => rfl
      | ok first =>
          intro count
          exact (Instance.Reaches.start.answers_onto traced traced' (named'.trans named.symm) started
            count).symm

end Resumable
