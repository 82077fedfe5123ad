import Mathlib
import Resumable.Proofs.Machine.Runs

/-! What a resume that fails leaves behind: the instance in the state it was in, and on its frame
all that was stored before the failure. Nothing is taken back. -/

namespace Resumable

/-- One frame becomes another by some stores, none of which fails. -/
inductive Frame.Takes : Frame → List Carried → Frame → Prop where
  | nil {frame : Frame} : Takes frame [] frame
  | cons {frame middle after : Frame} {carried : Carried} {rest : List Carried} :
    frame.save carried = .ok middle → Takes middle rest after → Takes frame (carried :: rest) after

def Frame.SameAt (slot : Slot) (frame after : Frame) : Prop :=
  match slot.stack with
  | .value => after.words[slot.index]? = frame.words[slot.index]?
  | .reference => after.references[slot.index]? = frame.references[slot.index]?

namespace Frame

variable {frame middle after : Frame} {carried : Carried} {first second stored : List Carried}
  {slot : Slot}

theorem Takes.append (takes : frame.Takes first middle) (others : middle.Takes second after) :
    frame.Takes (first ++ second) after := by
  induction takes with
  | nil => exact others
  | cons saved _ ih => exact .cons saved (ih others)

theorem Takes.eq (takes : frame.Takes [] after) : after = frame := by
  cases takes
  rfl

theorem Takes.sameAt (takes : frame.Takes stored after)
    (apart : ∀ carried ∈ stored, carried.slot ≠ slot) : frame.SameAt slot after := by
  induction takes with
  | nil => rw [SameAt]; split <;> rfl
  | @cons frame middle _ carried rest saved _ ih =>
      have further := ih fun other member => apart other (List.mem_cons_of_mem _ member)
      have elsewhere := apart carried List.mem_cons_self
      rcases slot with ⟨stack, index⟩
      rcases carried with ⟨var, ⟨stack', index'⟩, encoding, value⟩
      have other : stack' = stack → index' ≠ index := fun same same' =>
        elsewhere (by rw [same, same'])
      rw [save] at saved
      cases stack' with
      | value =>
          dsimp only at saved
          cases packed : value.encode encoding with
          | error => rw [packed] at saved; cases saved
          | ok word =>
              rw [packed] at saved
              cases saved
              cases stack with
              | value => exact further.trans (List.getElem?_set_ne (other rfl))
              | reference => exact further
      | reference =>
          cases saved
          cases stack with
          | value => exact further
          | reference => exact further.trans (List.getElem?_set_ne (other rfl))

end Frame

def Course.stored (course : Course) : List Carried := course.events.filterMap Event.store?

theorem Course.stored_behind (events : List Event) (course : Course) :
    (course.behind events).stored = events.filterMap Event.store? ++ course.stored :=
  List.filterMap_append

theorem Activate.storeValue_saves {slots : SlotTable} {activation after : Activation}
    (carried : Carried)
    (done : storeValue slots carried.slot carried.encoding carried.value activation =
      (.ok (), after)) : activation.frame.save carried = .ok after.frame := by
  rw [storeValue_apply] at done
  rw [Frame.save]
  rcases carried with ⟨var, ⟨_ | _, index⟩, encoding, value⟩
  · dsimp only at done ⊢
    cases packed : value.encode encoding with
    | error => rw [packed] at done; cases done
    | ok word =>
        rw [packed] at done
        dsimp only at done
        split at done
        · cases done
          rfl
        · cases done
  · dsimp only at done ⊢
    split at done
    · cases done
      rfl
    · cases done

theorem Activate.storeValue_frame {slots : SlotTable} {slot : Slot} {encoding : Encoding}
    {value : Value} {activation after : Activation} {failure : Failure}
    (failed : storeValue slots slot encoding value activation = (.error failure, after)) :
    after = activation := by
  rw [storeValue_apply] at failed
  split at failed
  · split at failed
    · split at failed <;> cases failed
      rfl
    · cases failed
      rfl
  · split at failed <;> cases failed
    rfl

theorem Activate.loadValue_frame (slots : SlotTable) (slot : Slot) (encoding : Encoding)
    (activation : Activation) : (loadValue slots slot encoding activation).2 = activation := by
  rw [loadValue_apply]
  split
  · split
    · split <;> rfl
    · rfl
  · split <;> rfl

mutual

theorem Emitted.course_takes (slots : SlotTable) (code : Emitted) (activation : Activation) :
    activation.frame.Takes (code.course slots activation).stored
      (code.course slots activation).after.frame := by
  cases code with
  | branch condition thenBlock elseBlock =>
      rw [course]
      rcases condition.evalCondition activation.session.env with failure | _ | _
      · exact .nil
      · exact courseAll_takes slots elseBlock activation.push
      · exact courseAll_takes slots thenBlock activation.push
  | store var name slot encoding =>
      rw [course, exec_store]
      cases activation.session.env.get? name with
      | none => exact .nil
      | some value =>
          dsimp only
          rcases stored : Activate.storeValue slots slot encoding value activation with
            ⟨failure | _, after⟩
          · obtain rfl := Activate.storeValue_frame stored
            exact .nil
          · exact .cons (Activate.storeValue_saves ⟨var, slot, encoding, value⟩ stored) .nil
  | load var name type slot encoding =>
      have same := Activate.loadValue_frame slots slot encoding activation
      rw [course, exec_load]
      generalize Activate.loadValue slots slot encoding activation = loaded at same ⊢
      rcases loaded with ⟨_ | _, after⟩ <;> obtain rfl := same <;> exact .nil
  | run statement =>
      rw [course, exec_run]
      rcases statement.exec activation.session with ⟨_ | _, session⟩ <;> exact .nil
  | result e =>
      rw [course, exec_result]
      cases e.eval activation.session.env <;> exact .nil
  | goTo target => exact .nil
  | leave => exact .nil

theorem Emitted.courseAll_takes (slots : SlotTable) (codes : List Emitted)
    (activation : Activation) : activation.frame.Takes (courseAll slots codes activation).stored
      (courseAll slots codes activation).after.frame := by
  cases codes with
  | nil => exact .nil
  | cons code rest =>
      have first := course_takes slots code activation
      rw [courseAll_cons]
      generalize code.course slots activation = course at first ⊢
      rcases course with ⟨events, _ | _ | _, middle⟩
      · exact first
      · change activation.frame.Takes ((courseAll slots rest middle).behind events).stored _
        rw [Course.stored_behind]
        exact first.append (courseAll_takes slots rest middle)
      · exact first

end

section Stores

variable {slots : SlotTable}

theorem Emitted.stores_listed (slots : SlotTable) (vars : List Variable) (activation : Activation) :
    ∃ stored : List Carried,
      (courseAll slots (vars.map Variable.store) activation).events = stored.map Event.store ∧
      stored.map Carried.var <+: vars.map Variable.id := by
  induction vars generalizing activation with
  | nil => exact ⟨[], rfl, List.prefix_rfl⟩
  | cons info rest ih =>
      rw [List.map_cons, Variable.store, courseAll_store]
      cases activation.session.env.get? info.localName with
      | none => exact ⟨[], rfl, List.nil_prefix⟩
      | some value =>
          dsimp only
          rcases Activate.storeValue slots info.slot info.encoding value activation with
            ⟨failure | _, after⟩
          · exact ⟨[], rfl, List.nil_prefix⟩
          · obtain ⟨stored, events, listed⟩ := ih after
            refine ⟨info.carry value :: stored, congrArg (_ :: ·) events, ?_⟩
            exact (List.prefix_cons_inj _).mpr listed

theorem Emitted.loads_storeless (slots : SlotTable) (vars : List Variable)
    (activation : Activation) :
    (courseAll slots (vars.map Variable.load) activation).stored = [] := by
  induction vars generalizing activation with
  | nil => rfl
  | cons info rest ih =>
      rw [List.map_cons, Variable.load, courseAll_load]
      rcases Activate.loadValue slots info.slot info.encoding activation with ⟨failure | _, after⟩
      · rfl
      · exact ih _

theorem Emitted.leaving_listed (slots : SlotTable) (vars : List Variable) (payload : Expr)
    (target : Target) (activation : Activation) :
    ∃ (stored : List Carried) (last : List Event) (env : Env),
      (courseAll slots (vars.map Variable.store ++ [Emitted.result payload, .goTo target, .leave])
        activation).events = stored.map Event.store ++ last ∧
      stored.map Carried.var <+: vars.map Variable.id ∧
      last <+: [.result payload, .goTo target, .leave env] := by
  obtain ⟨stored, events, listed⟩ := stores_listed slots vars activation
  rw [courseAll_append]
  generalize courseAll slots (vars.map Variable.store) activation = course at events
  rcases course with ⟨_, _ | _ | _, after⟩ <;> obtain rfl := events
  · exact ⟨stored, [], [], (List.append_nil _).symm, listed, List.nil_prefix⟩
  · rw [Course.andThen, courseAll_result]
    cases payload.eval after.session.env with
    | error => exact ⟨stored, [.result payload], [], rfl, listed, by simp⟩
    | ok value =>
        exact ⟨stored, _, after.session.env, rfl, listed, List.prefix_rfl⟩
  · exact ⟨stored, [], [], (List.append_nil _).symm, listed, List.nil_prefix⟩

end Stores

/-- A course that stores nothing before it comes to one of some suspensions, and goes no further
then. -/
inductive Course.Halts (slots : SlotTable) (leave : Site → Expr → List Emitted)
    (halts : List Halt) (course : Course) : Prop where
  | passes : course.stored = [] → Halts slots leave halts course
  | leaves (halt : Halt) (ran : List Event) (activation : Activation) : halt ∈ halts →
    ran.filterMap Event.store? = [] → course.events =
      ran ++ (Emitted.courseAll slots (leave halt.site halt.payload) activation).events →
    course.result ≠ .ok .onward → Halts slots leave halts course

section Halts

variable {slots : SlotTable} {leave : Site → Expr → List Emitted} {halts more : List Halt}
  {course : Course}

theorem Course.Halts.behind {events : List Event} (none_ : events.filterMap Event.store? = [])
    (stops : course.Halts slots leave halts) : (course.behind events).Halts slots leave halts := by
  cases stops with
  | passes storeless =>
      refine .passes ?_
      rw [stored_behind, none_, storeless, List.append_nil]
  | leaves halt ran activation member storeless same ended =>
      refine .leaves halt (events ++ ran) activation member ?_ ?_ ended
      · rw [List.filterMap_append, none_, storeless, List.append_nil]
      · rw [behind_events, same, List.append_assoc]

theorem Course.Halts.pop (stops : course.Halts slots leave halts) :
    course.pop.Halts slots leave halts := by
  cases stops with
  | passes storeless => exact .passes storeless
  | leaves halt ran activation member storeless same ended =>
      exact .leaves halt ran activation member storeless same ended

theorem Course.Halts.mono (stops : course.Halts slots leave halts)
    (among : ∀ halt ∈ halts, ∃ other ∈ more,
      other.site = halt.site ∧ other.payload = halt.payload) :
    course.Halts slots leave more := by
  cases stops with
  | passes storeless => exact .passes storeless
  | leaves halt ran activation member storeless same ended =>
      obtain ⟨other, inside, site, payload⟩ := among halt member
      rw [← site, ← payload] at same
      exact .leaves other ran activation inside storeless same ended

theorem Course.Halts.andThen {next : Activation → Course} (stops : course.Halts slots leave halts)
    (further : ∀ after, (next after).Halts slots leave halts) :
    (course.andThen next).Halts slots leave halts := by
  cases stops with
  | leaves halt ran activation member storeless same ended =>
      rw [andThen_of_ended ended]
      exact .leaves halt ran activation member storeless same ended
  | passes storeless =>
      rcases course with ⟨events, _ | _ | _, after⟩
      · exact .passes storeless
      · exact (further after).behind storeless
      · exact .passes storeless

theorem Route.code_halts {route : Route}
    (ends : ∀ site payload activation,
      (Emitted.courseAll slots (leave site payload) activation).result ≠ .ok .onward)
    (activation : Activation) :
    (Emitted.courseAll slots (route.code leave) activation).Halts slots leave route.halts := by
  induction route generalizing activation with
  | stop => exact .passes rfl
  | plain site statement rest ih =>
      cases statement with
      | none => exact ih activation
      | some s =>
          rw [code, Emit.statementCode]
          split
          · exact ih activation
          · rw [List.singleton_append, Emitted.courseAll_run]
            rcases s.untyped.exec activation.session with ⟨_ | _, session⟩
            · exact .passes rfl
            · exact (ih _).behind rfl
  | suspend site payload rest _ =>
      exact .leaves _ [] activation List.mem_cons_self rfl rfl (ends site payload activation)
  | branch site condition thenRoute elseRoute rest thenIH elseIH ih =>
      rw [code, Emitted.courseAll_branch]
      cases condition.untyped.evalCondition activation.session.env with
      | error => exact .passes rfl
      | ok test =>
          refine .behind rfl (.andThen (.pop ?_) fun after => ?_)
          · cases test
            · exact (elseIH _).mono fun halt member => ⟨halt.followedBy rest,
                List.mem_append_right _ (List.mem_append_left _ (List.mem_map_of_mem member)), rfl,
                rfl⟩
            · exact (thenIH _).mono fun halt member => ⟨halt.followedBy rest,
                List.mem_append_left _ (List.mem_map_of_mem member), rfl, rfl⟩
          · split
            · rename_i through
              refine (ih after).mono fun halt member => ⟨halt, ?_, rfl, rfl⟩
              rw [halts, if_pos through]
              exact List.mem_append_right _ (List.mem_append_right _ member)
            · exact .passes rfl

end Halts

/-- What a resume comes to at a suspension: it stores what is to be kept, in this order, and then
hands out the payload and leaves; or as much of it as succeeds. -/
def Lowered.Suspends (lowered : Lowered) (id : RegionId) (events : List Event) : Prop :=
  ∃ region node payload kept target, lowered.analysis.region? id = some region ∧
    lowered.body.graph.node? node.id = some node ∧ node.kind = .suspend payload ∧
    region.exits.lookup node.id = some target ∧
    lowered.analysis.persisted lowered.body region node = .ok kept ∧
    ∃ (stored : List Carried) (last : List Event) (env : Env),
      events = stored.map Event.store ++ last ∧
      stored.map Carried.var <+: kept.map Variable.id ∧
      last <+: [.result payload.untyped, .goTo target, .leave env]

/-- What a resume in a region stores: arguments where it is the entry, and then nothing before it
comes to a suspension. -/
def Lowered.Stores (lowered : Lowered) (id : RegionId) (events : List Event) : Prop :=
  ∃ (arrived : List Carried) (ran last : List Event),
    events = arrived.map Event.store ++ (ran ++ last) ∧
    (id ≠ 0 → arrived = []) ∧ arrived.map Carried.var <+: lowered.analysis.entryStores ∧
    ran.filterMap Event.store? = [] ∧ (last = [] ∨ lowered.Suspends id last)

section Traced

variable {lowered : Lowered} {settings : Settings} {function : Function} {infos : List Variable}
  {s' : Stmt} {route tail : Route} {id : RegionId} {region : Region} {inst : Instance}
  {slots : SlotTable} {context behind : Context}

theorem Symbols.infos_ids {symbols : Symbols} {vars : List VarId} (sound : symbols.Sound)
    (known : ∀ var : Nat, var ∈ vars → var < symbols.variables.size) :
    (symbols.infos vars).map Variable.id = vars := by
  induction vars with
  | nil => rfl
  | cons var rest ih =>
      obtain ⟨info, found⟩ := exists_info (known var List.mem_cons_self)
      have further := ih fun other member => known other (List.mem_cons_of_mem _ member)
      rw [infos, List.filterMap_cons_some found, List.map_cons, sound.numbered var info found]
      exact congrArg (var :: ·) further

theorem Region.arrival_stores (slots : SlotTable)
    (traced : lowered.Traced settings function infos s' route) (number : region.id = id)
    (activation : Activation) :
    ∃ (arrived : List Carried) (ran : List Event),
      (Emitted.courseAll slots (region.arrival lowered.body lowered.analysis) activation).events =
        arrived.map Event.store ++ ran ∧
      (id ≠ 0 → arrived = []) ∧ arrived.map Carried.var <+: lowered.analysis.entryStores ∧
      ran.filterMap Event.store? = [] := by
  rw [arrival, number]
  split
  · rename_i first
    obtain ⟨stored, events, listed⟩ := Emitted.stores_listed slots
      (lowered.body.symbols.infos lowered.analysis.entryStores) activation
    rw [Symbols.infos_ids traced.built.sound
      (traced.built.lt_of_entryStores traced.covers)] at listed
    exact ⟨stored, [], by rw [events, List.append_nil], fun later => absurd first later, listed,
      rfl⟩
  · exact ⟨[], _, rfl, fun _ => rfl, List.nil_prefix, Emitted.loads_storeless slots _ activation⟩

theorem Region.conduct_halts (activation : Activation) : (Emitted.courseAll slots
      (region.conduct lowered.body lowered.analysis tail) activation).Halts slots
        (region.leaving lowered.body lowered.analysis) tail.halts := by
  rw [Region.conduct, Emitted.courseAll_append]
  refine (Route.code_halts (fun _ _ _ => Region.leaving_ends) activation).andThen fun after => ?_
  cases tail.flow none <;> exact .passes rfl

theorem Analysis.Part.suspends (slots : SlotTable)
    (traced : lowered.Traced settings function infos s' route)
    (part : lowered.analysis.Part lowered.body route id region tail context behind)
    {halt : Halt} (halts : halt ∈ tail.halts) (activation : Activation) :
    lowered.Suspends id (Emitted.courseAll slots
      (region.leaving lowered.body lowered.analysis halt.site halt.payload) activation).events := by
  obtain ⟨node, present, is⟩ := Route.halt_at
    (traced.built.laid.of_mem_tails part.inside) halts
  have exit := part.covers.exits halt halts
  obtain ⟨stored, last, env, events, listed, ends⟩ := Emitted.leaving_listed slots
    (region.kept lowered.body lowered.analysis halt.site) halt.payload.untyped
    ((region.exits.lookup halt.site.id).getD .complete) activation
  rw [exit] at ends
  exact ⟨region, node, halt.payload, _, _, part.present, is.id ▸ present, is.kind, is.id ▸ exit,
    Analysis.persisted_eq traced.built.sound is.id is.scope, stored, last, env, events, listed,
    ends⟩

theorem Lowered.Traced.stores (traced : lowered.Traced settings function infos s' route)
    (same : inst.machine = lowered.machine) (resumes : inst.state = .region id) :
    lowered.Stores id inst.course.events := by
  rw [Instance.course, Instance.code, resumes]
  dsimp only [Target.region?, Option.bind_some]
  cases found : inst.machine.state? id with
  | none => exact ⟨[], [], [], rfl, fun _ => rfl, List.nil_prefix, rfl, .inl rfl⟩
  | some state =>
      rw [same, Machine.state?] at found
      have named : state.id = id := by simpa using List.find?_some found
      have member := List.mem_of_find?_eq_some found
      rw [traced.emitted.states] at member
      obtain ⟨region, inside, rfl⟩ := List.mem_map.mp member
      obtain ⟨index, below, there⟩ := List.getElem_of_mem inside
      have present : lowered.analysis.region? index = some region :=
        there ▸ List.getElem?_eq_getElem below
      have number : region.id = id := named
      obtain rfl : index = id :=
        (traced.covers.splits.numbered index region present).symm.trans number
      obtain ⟨tail, _, _, part⟩ := traced.built.part_of_region traced.covers present
      rw [Region.part_eq traced.built.distinct part.inside part.covers.start, Option.map_some,
        Option.getD_some, Region.state, Emitted.courseAll_append]
      obtain ⟨arrived, ran, events, later, entry, none_⟩ := Region.arrival_stores
        inst.machine.slots traced number inst.activation
      generalize Emitted.courseAll inst.machine.slots
        (region.arrival lowered.body lowered.analysis) inst.activation = course at events
      rcases course with ⟨_, _ | _ | _, after⟩ <;> obtain rfl := events
      · exact ⟨arrived, ran, [], by simp [Course.andThen], later, entry, none_, .inl rfl⟩
      · change lowered.Stores index (_ ++ _ ++ _)
        rw [List.append_assoc]
        cases region.conduct_halts after with
        | passes storeless =>
            refine ⟨arrived, _, [], by rw [List.append_nil], later, entry, ?_, .inl rfl⟩
            rw [List.filterMap_append, none_]
            exact storeless
        | leaves halt more activation member storeless same ended =>
            refine ⟨arrived, ran ++ more, _, ?_, later, entry, ?_,
              .inr (part.suspends inst.machine.slots traced member activation)⟩
            · rw [same, List.append_assoc]
            · rw [List.filterMap_append, none_, storeless, List.append_nil]
      · exact ⟨arrived, ran, [], by simp [Course.andThen], later, entry, none_, .inl rfl⟩

end Traced

namespace Instance

variable {inst after : Instance} {failure : Failure} {id : RegionId}

theorem resume_takes (resumes : inst.state = .region id)
    (allowed : inst.resumes < inst.maxResumes) :
    inst.frame.Takes inst.course.stored inst.resume.2.frame := by
  cases found : inst.machine.state? id with
  | none =>
      have code : inst.code = [] := by simp [code, resumes, Target.region?, found]
      have stays : inst.resume.2.frame = inst.frame := by
        rw [resume, resumes]
        dsimp only
        rw [if_neg (Nat.not_lt_of_le allowed), found]
        rfl
      rw [stays, course, code]
      exact .nil
  | some state =>
      have takes : inst.frame.Takes inst.course.stored inst.course.after.frame :=
        Emitted.courseAll_takes inst.machine.slots inst.code inst.activation
      rw [resume_course resumes found allowed, ended]
      split <;> exact takes

theorem resume_failed (failed : inst.resume = (.error failure, after)) : after = { inst with
    words := after.words, references := after.references, resumes := after.resumes } := by
  rw [resume] at failed
  split at failed
  · cases failed
    rfl
  · dsimp only at failed
    split at failed
    · cases failed
      rfl
    · split at failed
      · cases failed
        rfl
      · rw [runState] at failed
        dsimp only at failed
        split at failed
        split at failed <;> cases failed <;> rfl

end Instance

/-- A resume that fails, whatever the frame it began with: the instance keeps its machine, arguments
and state, so that the next resume runs the same code. A refused resume leaves the frame alone. Any
other takes nothing back: the frame is what was stored makes of it, and slots in which nothing was
stored are as they were. Behind the entry nothing is stored before a suspension is come to. -/
theorem Lowered.failed_resume {source : Source} {settings : Settings} {lowered : Lowered}
    {inst after : Instance} {failure : Failure} (lowers : source.lower settings = .ok lowered)
    (same : inst.machine = lowered.machine) (failed : inst.resume = (.error failure, after)) :
    (after.machine = inst.machine ∧ after.args = inst.args ∧ after.state = inst.state ∧
      after.maxResumes = inst.maxResumes ∧ after.code = inst.code) ∧
    (inst.state = .complete ∨ inst.maxResumes ≤ inst.resumes → after.frame = inst.frame) ∧
    ∀ id, inst.state = .region id → inst.resumes < inst.maxResumes →
      inst.frame.Takes inst.course.stored after.frame ∧
      (∀ slot, (∀ carried ∈ inst.course.stored, carried.slot ≠ slot) →
        inst.frame.SameAt slot after.frame) ∧
      lowered.Stores id inst.course.events ∧
      (id ≠ 0 → after.frame = inst.frame ∨ ∃ ran last, inst.course.events = ran ++ last ∧
        ran.filterMap Event.store? = [] ∧ lowered.Suspends id last) := by
  have kept := Instance.resume_failed failed
  refine ⟨?_, ?_, fun id resumes allowed => ?_⟩
  · rw [kept]
    exact ⟨rfl, rfl, rfl, rfl, rfl⟩
  · intro refused
    cases state : inst.state with
    | complete =>
        rw [Instance.resume_complete state] at failed
        cases failed
        rfl
    | region id =>
        have beyond : ¬ inst.resumes < inst.maxResumes := by
          rcases refused with complete | beyond
          · cases state.symm.trans complete
          · exact Nat.not_lt_of_le beyond
        rw [Instance.resume_beyond state beyond] at failed
        cases failed
        rfl
  · obtain ⟨_, _, _, _, _, traced⟩ := Source.lower_traced lowers
    have takes := Instance.resume_takes resumes allowed
    rw [failed] at takes
    have stores := traced.stores same resumes
    refine ⟨takes, fun slot apart => takes.sameAt apart, stores, fun behind => ?_⟩
    obtain ⟨arrived, ran, last, events, none_, _, storeless, ends⟩ := stores
    rw [none_ behind, List.map_nil, List.nil_append] at events
    rcases ends with rfl | suspends
    · rw [Course.stored, events, List.append_nil, storeless] at takes
      exact .inl takes.eq
    · exact .inr ⟨ran, last, events, storeless, suspends⟩

/-- The second resume fails once it has counted, and the third one goes on from there. -/
theorem Source.retried_runs : ∃ lowered first inst after failure,
    retried.lower {} = .ok lowered ∧ Instance.start lowered.machine [] {} = .ok first ∧
    first.Reaches [first] inst ∧ inst.resume = (.error failure, after) ∧
    inst.state = .region 1 ∧ inst.resumes < inst.maxResumes ∧
    inst.words = [0] ∧ after.words = [1] ∧ after.resume.1 = .ok (some (.int 10)) := by
  have seen : ((retried.lower {}).bind fun lowered =>
      (Instance.start lowered.machine [] {}).map fun first =>
        (first.resume.1, first.resume.2.resume.1.isOk, first.resume.2.state,
          decide (first.resume.2.resumes < first.resume.2.maxResumes), first.resume.2.words,
          first.resume.2.resume.2.words, first.resume.2.resume.2.resume.1)) =
            .ok (.ok (some (.int 0)), false, .region 1, true, [0], [1], .ok (some (.int 10))) := by
    cbv
  obtain ⟨lowered, first, done, started, same⟩ := start_of_bind seen
  simp only [Prod.mk.injEq] at same
  obtain ⟨answer, fails, state, allowed, before, behind, again⟩ := same
  have reaches : first.Reaches [first] first.resume.2 := .resume .start (Prod.ext answer rfl)
  cases failed : first.resume.2.resume.1 with
  | ok => rw [failed] at fails; cases fails
  | error failure =>
      exact ⟨lowered, first, _, _, failure, done, started, reaches, Prod.ext failed rfl, state,
        of_decide_eq_true allowed, before, behind, again⟩

/-- A failed resume does not leave the saved words as they were, and the next one does not run from
the same values again. -/
theorem Instance.Reaches.failed_resume_stores : ∃ lowered first inst after failure,
    Source.retried.lower {} = .ok lowered ∧
    Instance.start lowered.machine [] {} = .ok first ∧ first.Reaches [first] inst ∧
    inst.resume = (.error failure, after) ∧ after.words ≠ inst.words ∧
    after.resume.1 = .ok (some (.int 10)) := by
  obtain ⟨lowered, first, inst, after, failure, done, started, reaches, failed, _, _, before,
    behind, again⟩ := Source.retried_runs
  have differ : after.words ≠ inst.words := by
    rw [before, behind]
    decide
  exact ⟨lowered, first, inst, after, failure, done, started, reaches, failed, differ, again⟩

theorem Lowered.failed_resume_retried : ∃ (lowered : Lowered) (inst after : Instance)
    (failure : Failure),
    Source.retried.lower {} = .ok lowered ∧ inst.machine = lowered.machine ∧
    inst.resume = (.error failure, after) ∧ inst.state = .region 1 ∧
    inst.resumes < inst.maxResumes ∧ after.state = .region 1 ∧ after.code = inst.code ∧
    inst.frame.Takes inst.course.stored after.frame ∧ lowered.Stores 1 inst.course.events := by
  obtain ⟨lowered, first, inst, after, failure, done, started, reaches, failed, resumes, allowed,
    _⟩ := Source.retried_runs
  have same := reaches.machine.trans (Instance.start_machine started)
  obtain ⟨⟨_, _, state, _, code⟩, _, each⟩ := Lowered.failed_resume done same failed
  obtain ⟨takes, _, stores, _⟩ := each 1 resumes allowed
  exact ⟨lowered, inst, after, failure, done, same, failed, resumes, allowed, state.trans resumes,
    code, takes, stores⟩

end Resumable
