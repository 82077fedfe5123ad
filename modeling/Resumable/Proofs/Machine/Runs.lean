import Resumable.Proofs.Machine.Arrivals

/-! Runs of a machine, resume after resume. -/

namespace Resumable

open Symbols

section Step

variable {lowered : Lowered} {settings : Settings} {function : Function} {infos : List Variable}
  {s' : Stmt} {route tail : Route} {inst next : Instance} {past : List Instance} {flat : Session}
  {id : RegionId} {region : Region} {context behind : Context} {value : Option Value}

/-- What a resume in a region comes to. -/
structure Instance.Resumes (inst : Instance) (lowered : Lowered) (past : List Instance)
    (flat : Session) (region : Region) (tail : Route) (held : VarId → Bool) (events : List Event)
    (arrived : Activation) (course : Course) : Prop where
  arrives : inst.Arrives lowered past flat.env region tail events arrived
  conducted : region.Conducted inst.machine.slots lowered.body lowered.analysis held arrived
    (tail.walk flat) course
  comes : course.ComesTo
    (region.turn lowered.body lowered.analysis arrived.frame (tail.walk flat))
  course : inst.course = course.behind events
  answer : inst.resumes < inst.maxResumes → inst.resume =
    match (region.turn lowered.body lowered.analysis arrived.frame (tail.walk flat)).result with
    | .error failure => (.error failure, inst.after
        (region.turn lowered.body lowered.analysis arrived.frame (tail.walk flat)).frame)
    | .ok (value, next) => (.ok value, { inst.after
        (region.turn lowered.body lowered.analysis arrived.frame (tail.walk flat)).frame with
          state := next })

theorem Instance.Ready.resumes_of {events : List Event} {arrived : Activation}
    (traced : lowered.Traced settings function infos s' route)
    (ready : inst.Ready lowered infos route past flat id region tail context behind)
    (arrives : inst.Arrives lowered past flat.env region tail events arrived) :
    ∃ course, inst.Resumes lowered past flat region tail (region.holds context.size) events arrived
      course := by
  have part := ready.part
  have found := traced.emitted.state? traced.built traced.covers part.present part.inside
    part.covers.start
  rw [← ready.machine] at found
  have code : inst.code = region.arrival lowered.body lowered.analysis ++
      region.conduct lowered.body lowered.analysis tail := by
    simp [Instance.code, ready.state, Target.region?, found, Region.state]
  have whole : inst.course = (Emitted.courseAll inst.machine.slots
      (region.conduct lowered.body lowered.analysis tail) arrived).behind events := by
    rw [Instance.course, code, Emitted.courseAll_append, arrives.course]
    rfl
  have conducted := part.conducted inst.machine.slots traced.built arrives.open_ ready.open_
    arrives.live
  have comes := part.comes_to traced.built traced.covers arrives.records.spans arrives.result
    conducted
  exact ⟨_, arrives, conducted, comes, whole, fun allowed =>
    Instance.resume_turn ready.state found allowed comes whole⟩

theorem Instance.Ready.resumes (traced : lowered.Traced settings function infos s' route)
    (ready : inst.Ready lowered infos route past flat id region tail context behind) :
    ∃ events arrived course, inst.Resumes lowered past flat region tail
      (region.holds context.size) events arrived course := by
  obtain ⟨events, arrived, arrives⟩ := ready.arrives traced
  exact ⟨events, arrived, ready.resumes_of traced arrives⟩

theorem Instance.history_append (past : List Instance) (inst : Instance) :
    history (past ++ [inst]) = history past ++ inst.course.events.filterMap Event.store? := by
  simp [history]

/-- A resume in a region that succeeds walks on: to the end of the route, where the machine is
complete, or to a suspension, from which the machine is ready to go on. -/
theorem Instance.Ready.step (traced : lowered.Traced settings function infos s' route)
    (ready : inst.Ready lowered infos route past flat id region tail context behind)
    (done : inst.resume = (.ok value, next)) :
    ((tail.walk flat).result = .ok none ∧ value = none ∧ next.state = .complete) ∨
    ∃ halt paid, (tail.walk flat).result = .ok (some halt) ∧
      halt.payload.eval (tail.walk flat).after.env = .ok paid ∧ value = some paid ∧
      next.state = halt.rest.target lowered.analysis.starts ∧
      ∀ e, halt.rest.first? = some e → ∃ region' context' behind',
        next.Ready lowered infos route (past ++ [inst]) (tail.walk flat).after
          (lowered.analysis.starts.idxOf e) region' halt.rest context' behind' := by
  obtain ⟨events, arrived, course, resumes⟩ := ready.resumes traced
  have answer := resumes.answer (allowed_of_resume done)
  rw [done] at answer
  have part := ready.part
  cases result : (region.turn lowered.body lowered.analysis arrived.frame (tail.walk flat)).result with
  | error failure =>
      rw [result] at answer
      cases answer
  | ok choice =>
      obtain ⟨value', target⟩ := choice
      rw [result] at answer
      obtain ⟨same, rfl⟩ := Prod.mk.inj answer
      cases Except.ok.inj same
      rcases Region.turn_ok result with ⟨stopped, rfl, rfl⟩ | ⟨halt, paid, stopped, pays, rfl, rfl⟩
      · exact .inl ⟨stopped, rfl, rfl⟩
      · have halts := Route.mem_halts_of_walk stopped
        have exit : (region.exits.lookup halt.site.id).getD .complete =
            halt.rest.target lowered.analysis.starts := by
          rw [part.covers.exits halt halts]
          rfl
        refine .inr ⟨halt, paid, stopped, pays, rfl, exit, fun e starts => ?_⟩
        obtain ⟨region', context', behind', further⟩ := part.next traced.built traced.covers halts
          starts
        have later := part.later traced.built traced.covers halts starts
        obtain ⟨env, left, shared, open_⟩ := resumes.conducted.left stopped
          (resumes.comes.done _ _ result).1
        have stored : history (past ++ [inst]) = history past ++ events.filterMap Event.store? ++
            (region.turn lowered.body lowered.analysis arrived.frame (tail.walk flat)).stored := by
          rw [history_append, resumes.course, Course.behind_events, List.filterMap_append,
            resumes.comes.stored, List.append_assoc]
        have recorded : ∀ var, halt.rest.Needs var → Recorded lowered.body.symbols
            (history (past ++ [inst])) (tail.walk flat).after.env var := by
          intro var needs
          rw [stored]
          exact part.recorded_behind traced.built traced.covers ready.open_ stopped shared result
            (resumes.arrives.recorded halt halts) needs
        refine ⟨region', context', behind', ready.machine, ?_, ready.args, further, ?_,
          fun first => absurd first later, open_, fun _ => recorded, fun _ => ⟨inst, env, by simp,
            ?_, fun var needs => ?_⟩⟩
        · exact exit.trans (by rw [Route.target, starts])
        · rw [stored]
          exact part.turn_records traced.built traced.covers flat resumes.arrives.records
        · rw [resumes.course, Course.behind_events, List.getLast?_append, left]
          rfl
        · obtain ⟨info, value, found, there, last⟩ := recorded var needs
          obtain ⟨info', value', found', here, there'⟩ := shared var
            (part.known_behind traced.built halts needs)
          obtain rfl := Option.some.inj (found.symm.trans found')
          obtain rfl := Option.some.inj (there.symm.trans there')
          exact ⟨info, value, found, here, last⟩

/-- A resume in a region that fails is over the limit, fails as the body does by itself, or has
something to store that is not of its type. -/
theorem Instance.Ready.fails {failure : Failure}
    (traced : lowered.Traced settings function infos s' route)
    (ready : inst.Ready lowered infos route past flat id region tail context behind)
    (failed : inst.resume.1 = .error failure) :
    failure.Own ∨ (∃ info value, lowered.body.symbols.variables.get? info.id = some info ∧
      Value.hasType value info.type = false ∧
      failure.fault = .run (.unpackable value info.encoding)) ∨
    (inst.maxResumes ≤ inst.resumes ∧
      failure.fault = .run (.resumeLimit inst.machine.name inst.maxResumes)) := by
  by_cases allowed : inst.resumes < inst.maxResumes
  · obtain ⟨events, arrived, course, resumes⟩ := ready.resumes traced
    have answer := resumes.answer allowed
    cases result : (region.turn lowered.body lowered.analysis arrived.frame
        (tail.walk flat)).result with
    | ok choice =>
        rw [answer, result] at failed
        cases failed
    | error found =>
        rw [answer, result] at failed
        cases failed
        exact (ready.part.turn_error traced.built traced.covers resumes.conducted result).imp_right
          .inl
  · rw [resume_beyond ready.state allowed] at failed
    cases failed
    exact .inr (.inr ⟨Nat.not_lt.mp allowed, rfl⟩)

end Step

/-- What can be reached from an instance by resumes that succeed, and the instances that were resumed
on the way. -/
inductive Instance.Reaches (first : Instance) : List Instance → Instance → Prop where
  | start : Reaches first [] first
  | resume {past : List Instance} {inst next : Instance} {value : Option Value} :
    Reaches first past inst → inst.resume = (.ok value, next) →
    Reaches first (past ++ [inst]) next

section Run

variable {lowered : Lowered} {settings settings' : Settings} {function : Function}
  {infos : List Variable} {s' : Stmt} {route : Route} {first inst : Instance}
  {past : List Instance} {args : List Value}

theorem Instance.start_ready (traced : lowered.Traced settings function infos s' route)
    (started : Instance.start lowered.machine args settings' = .ok first) :
    ∃ region context behind,
      first.Ready lowered infos route [] { env := first.entryEnv 0 } 0 region route
      context behind := by
  obtain ⟨_, checked, done⟩ := ok_bind started
  cases done
  obtain ⟨e, starts⟩ := Option.ne_none_iff_exists'.mp (mt Route.first?_eq_none.mp traced.built.some_)
  obtain ⟨member, zero⟩ := traced.covers.first starts
  obtain ⟨region, context, behind, part⟩ := traced.built.part traced.covers
    (Route.self_mem_tails traced.built.some_) starts member
  rw [zero] at part
  refine ⟨region, context, behind, rfl, rfl, ?_, part, .empty ?_, fun _ => rfl, ?_,
    fun later => absurd rfl later, fun later => absurd rfl later⟩
  · have fits := checkArgs_ok checked
    rw [traced.emitted.params, List.map_map] at fits
    exact List.forall₂_map_left_iff.mp fits
  · rw [traced.emitted.slots]
    exact ⟨List.length_replicate .., List.length_replicate ..⟩
  · exact defineAll_ne_nil (List.cons_ne_nil _ _) _ _

/-- A machine that was started and resumed is complete, or ready to go on. -/
theorem Instance.Reaches.ready (traced : lowered.Traced settings function infos s' route)
    (started : Instance.start lowered.machine args settings' = .ok first)
    (reaches : first.Reaches past inst) :
    inst.state = .complete ∨ ∃ flat id region tail context behind,
      inst.Ready lowered infos route past flat id region tail context behind := by
  induction reaches with
  | start =>
      obtain ⟨region, context, behind, ready⟩ := start_ready traced started
      exact .inr ⟨_, _, _, _, _, _, ready⟩
  | @resume past inst next value _ done ih =>
      rcases ih with complete | ⟨flat, id, region, tail, context, behind, ready⟩
      · rw [resume_complete complete] at done
        cases done
      · rcases ready.step traced done with ⟨_, _, complete⟩ | ⟨halt, _, _, _, _, goes, further⟩
        · exact .inl complete
        · cases starts : halt.rest.first? with
          | none => exact .inl (goes.trans (by rw [Route.target, starts]))
          | some e =>
              obtain ⟨region', context', behind', ready⟩ := further e starts
              exact .inr ⟨_, _, _, _, _, _, ready⟩

theorem Instance.Reaches.machine (reaches : first.Reaches past inst) :
    inst.machine = first.machine := by
  induction reaches with
  | start => rfl
  | @resume _ inst _ _ _ done ih => rw [← ih, ← inst.resume_machine, done]

/-- A region that is resumed loads what it needs, each variable with the value it had when the
machine was left, which was the last to be stored in its slot. -/
theorem Instance.Ready.loaded {tail : Route} {id : RegionId} {region : Region}
    {context behind : Context} {flat : Session}
    (traced : lowered.Traced settings function infos s' route)
    (ready : inst.Ready lowered infos route past flat id region tail context behind)
    (later : id ≠ 0) {env : Env}
    (recorded : ∀ var, tail.Needs var → Recorded lowered.body.symbols (history past) env var) :
    inst.course.events.filterMap Event.load? =
        (lowered.body.symbols.infos region.liveIn.elems).map (Variable.held env) ∧
      ∀ carried, Event.load carried ∈ inst.course.events → ∃ info,
        lowered.body.symbols.variables.get? carried.var = some info ∧
        carried = info.carry carried.value ∧
        env.get? info.localName = some carried.value ∧
        Carried.lastIn carried.slot (history past) = some carried := by
  obtain ⟨arrived, arrives⟩ := ready.loads_needed traced later
  obtain ⟨course, resumes⟩ := ready.resumes_of traced arrives
  have each : ∀ info ∈ lowered.body.symbols.infos region.liveIn.elems, ∃ value,
      info.held flat.env = info.carry value ∧ info.held env = info.carry value ∧
      lowered.body.symbols.variables.get? info.id = some info ∧
      env.get? info.localName = some value ∧
      Carried.lastIn info.slot (history past) = some (info.carry value) := by
    intro info member
    obtain ⟨listed, found⟩ := (mem_infos traced.built.sound).mp member
    have needs := (ready.part.live info.id).mp (VarSet.mem_iff.mpr listed)
    obtain ⟨_, value, found', there, last⟩ := recorded info.id needs
    obtain ⟨_, value', found'', there', last'⟩ := ready.recorded later info.id needs
    obtain rfl := Option.some.inj (found.symm.trans found')
    obtain rfl := Option.some.inj (found.symm.trans found'')
    have same := Option.some.inj (last.symm.trans last')
    obtain rfl : value = value' := congrArg Carried.value same
    exact ⟨value, by rw [Variable.held, there']; rfl, by rw [Variable.held, there]; rfl, found, there,
      last⟩
  have loads : inst.course.events.filterMap Event.load? =
      (lowered.body.symbols.infos region.liveIn.elems).map (Variable.held env) := by
    rw [resumes.course, Course.behind_events, List.filterMap_append, resumes.comes.loaded,
      List.append_nil, List.filterMap_map,
      show Event.load? ∘ (fun info => .load (info.held flat.env)) = some ∘ Variable.held flat.env from rfl,
      List.filterMap_eq_map]
    refine List.map_congr_left fun info member => ?_
    obtain ⟨value, before, now, _⟩ := each info member
    rw [before, now]
  refine ⟨loads, fun carried member => ?_⟩
  have listed : carried ∈ inst.course.events.filterMap Event.load? :=
    List.mem_filterMap.mpr ⟨_, member, rfl⟩
  rw [loads] at listed
  obtain ⟨info, inside, rfl⟩ := List.mem_map.mp listed
  obtain ⟨value, _, held, found, there, last⟩ := each info inside
  rw [held]
  exact ⟨info, found, rfl, there, last⟩

/-- Locals survive suspensions. Whatever a region loads when it is resumed has the value it had in
the environment that the last resume left, and was last stored as that variable in its slot. -/
theorem Instance.Reaches.loads {source : Source} {id : RegionId}
    (lowers : source.lower settings = .ok lowered)
    (started : Instance.start lowered.machine args settings' = .ok first)
    (reaches : first.Reaches past inst) (resumed : inst.state = .region id) (later : 0 < id) :
    ∃ last value env region, past.getLast? = some last ∧ last.resume = (.ok value, inst) ∧
      last.course.events.getLast? = some (.leave env) ∧
      lowered.analysis.region? id = some region ∧
      inst.course.events.filterMap Event.load? =
        (lowered.body.symbols.infos region.liveIn.elems).map (Variable.held env) ∧
      ∀ carried, Event.load carried ∈ inst.course.events → ∃ info,
        lowered.body.symbols.variables.get? carried.var = some info ∧
        carried = info.carry carried.value ∧
        env.get? info.localName = some carried.value ∧
        Carried.lastIn carried.slot (history past) = some carried := by
  obtain ⟨function, infos, s', route, _, traced⟩ := Source.lower_traced lowers
  rcases reaches.ready traced started with complete | ⟨flat, id', region, tail, _, _, ready⟩
  · rw [resumed] at complete
    cases complete
  · cases resumed.symm.trans ready.state
    have away : id ≠ 0 := Nat.ne_of_gt later
    obtain ⟨last, env, latest, left, recorded⟩ := ready.left away
    obtain ⟨loads, each⟩ := ready.loaded traced away recorded
    cases reaches with
    | start => cases latest
    | @resume past prior _ value _ done =>
        rw [List.getLast?_append, List.getLast?_singleton, Option.some_or, Option.some.injEq] at latest
        subst latest
        exact ⟨prior, value, env, region, by simp, done, left, ready.part.present, loads, each⟩

theorem Instance.Reaches.loads_fork : ∃ lowered first inst,
    Source.fork.lower {} = .ok lowered ∧
    Instance.start lowered.machine [.bool false, .int 2] {} = .ok first ∧
    first.Reaches [first] inst ∧ inst.state = .region 2 ∧
    ∃ last value env region, [first].getLast? = some last ∧ last.resume = (.ok value, inst) ∧
      last.course.events.getLast? = some (.leave env) ∧
      lowered.analysis.region? 2 = some region ∧
      inst.course.events.filterMap Event.load? =
        (lowered.body.symbols.infos region.liveIn.elems).map (Variable.held env) ∧
      ∀ carried, Event.load carried ∈ inst.course.events → ∃ info,
        lowered.body.symbols.variables.get? carried.var = some info ∧
        carried = info.carry carried.value ∧
        env.get? info.localName = some carried.value ∧
        Carried.lastIn carried.slot (history [first]) = some carried := by
  have seen : ((Source.fork.lower {}).bind fun lowered =>
      (Instance.start lowered.machine [.bool false, .int 2] {}).map fun first =>
        (first.resume.1.toOption, first.resume.2.state)) =
          .ok (some (some (.int 2)), .region 2) := by cbv
  obtain ⟨lowered, first, done, started, same⟩ := Source.start_of_bind seen
  obtain ⟨answer, state⟩ := Prod.mk.inj same
  have resumed : first.resume = (.ok (some (.int 2)), first.resume.2) := by
    refine Prod.ext ?_ rfl
    cases result : first.resume.1 with
    | error => rw [result] at answer; cases answer
    | ok value => rw [result] at answer; exact congrArg Except.ok (Option.some.inj answer)
  have reaches : first.Reaches [first] first.resume.2 := .resume .start resumed
  exact ⟨lowered, first, _, done, started, reaches, state,
    reaches.loads done started state (Nat.succ_pos 1)⟩

/-- Failures that speak of the machine and not of the body. -/
def RunFault.isInternal : RunFault → Bool
  | noState .. | noNextState .. | outsideFrame .. | unbound _ | unboundTarget _ => true
  | suspensionInState | suspensionInExpression | functionValue => true
  | notACharacter _ | referenceWord => true
  | _ => false

/-- Emitted machines never fail internally. A resume behind others that succeeded fails as the body
does by itself, or with a value that is not of the type of its variable, or because the limit is
reached or the machine is complete. -/
theorem Instance.Reaches.failures {source : Source} {failure : Failure}
    (lowers : source.lower settings = .ok lowered)
    (started : Instance.start lowered.machine args settings' = .ok first)
    (reaches : first.Reaches past inst) (failed : inst.resume.1 = .error failure) :
    ∃ fault, failure.fault = .run fault ∧ fault.isInternal = false ∧
      (fault.isOwn = true ∨
        (∃ info value, lowered.body.symbols.variables.get? info.id = some info ∧
          Value.hasType value info.type = false ∧ fault = .unpackable value info.encoding) ∨
        (inst.maxResumes ≤ inst.resumes ∧
          fault = .resumeLimit inst.machine.name inst.maxResumes) ∨
        (inst.state = .complete ∧ fault = .completed inst.machine.name)) := by
  obtain ⟨function, infos, s', route, _, traced⟩ := Source.lower_traced lowers
  rcases reaches.ready traced started with complete | ⟨flat, id, region, tail, _, _, ready⟩
  · rw [resume_complete complete] at failed
    cases failed
    exact ⟨_, rfl, rfl, .inr (.inr (.inr ⟨complete, rfl⟩))⟩
  · rcases ready.fails traced failed with ⟨fault, own, is⟩ | ⟨info, value, found, unfit, is⟩ |
      ⟨beyond, is⟩
    · refine ⟨fault, own, ?_, .inl is⟩
      cases fault <;> first | rfl | cases is
    · exact ⟨_, is, rfl, .inr (.inl ⟨info, value, found, unfit, rfl⟩)⟩
    · exact ⟨_, is, rfl, .inr (.inr (.inl ⟨beyond, rfl⟩))⟩

/-- A coroutine that counts what it has handed out, and divides by it. -/
def Source.retried : Source :=
  let hand (e : Expr) : Stmt := .evaluate (.suspend e {}) {}
  let x : Expr := .reference "x" {}
  let one : Expr := .int 1 {}
  { name := "retry"
    arity := 0
    function := .function [] .int (.block [.declare "x" .int true (.int 0 {}) {}, hand x,
      .assign "x" (.binary .add x one {}) {},
      hand (.binary .div (.int 10 {}) (.binary .sub x one {}) {}), hand x] {}) {} }

theorem Instance.Reaches.failures_retried : ∃ lowered first inst failure,
    Source.retried.lower {} = .ok lowered ∧ Instance.start lowered.machine [] {} = .ok first ∧
    first.Reaches [first] inst ∧ inst.state = .region 1 ∧ inst.resume.1 = .error failure ∧
    ∃ fault, failure.fault = .run fault ∧ fault.isInternal = false ∧
      (fault.isOwn = true ∨
        (∃ info value, lowered.body.symbols.variables.get? info.id = some info ∧
          Value.hasType value info.type = false ∧ fault = .unpackable value info.encoding) ∨
        (inst.maxResumes ≤ inst.resumes ∧
          fault = .resumeLimit inst.machine.name inst.maxResumes) ∨
        (inst.state = .complete ∧ fault = .completed inst.machine.name)) := by
  have seen : ((Source.retried.lower {}).bind fun lowered =>
      (Instance.start lowered.machine [] {}).map fun first =>
        (first.resume.1, first.resume.2.state, first.resume.2.resume.1.isOk)) =
          .ok (.ok (some (.int 0)), .region 1, false) := by cbv
  obtain ⟨lowered, first, done, started, same⟩ := Source.start_of_bind seen
  simp only [Prod.mk.injEq] at same
  obtain ⟨answer, state, fails⟩ := same
  have reaches : first.Reaches [first] first.resume.2 := .resume .start (Prod.ext answer rfl)
  cases failed : first.resume.2.resume.1 with
  | ok => rw [failed] at fails; cases fails
  | error failure =>
      exact ⟨lowered, first, _, failure, done, started, reaches, state, failed,
        Instance.Reaches.failures done started reaches failed⟩

end Run
end Resumable
