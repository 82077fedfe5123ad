import Resumable.Proofs.Machine.History
import Resumable.Proofs.Machine.Regions

/-! What the code of a region comes to on a frame that has room for every slot: the answer of the
resume, the next state, and what is stored. All of it is read off the walk over the region. -/

namespace Resumable

open Symbols

theorem Route.walk_get? {symbols : Symbols} {route : Route} {before behind : Context}
    {session : Session} {var : Nat} {info : Variable} (sound : symbols.Sound)
    (leads : Leads before route behind) (fits : route.Fits symbols)
    (found : symbols.variables.get? var = some info) (fixed : info.mutable = false)
    (older : var < before.size) (some_ : session.env ≠ []) :
    (route.walk session).after.env.get? info.localName = session.env.get? info.localName ∧
      (route.walk session).after.env ≠ [] := by
  induction route generalizing before behind session with
  | stop => exact ⟨rfl, some_⟩
  | plain site statement rest ih =>
      obtain ⟨within, leads⟩ := leads
      have further := Nat.lt_of_lt_of_le older (Nat.le_trans within.size within.grows)
      cases statement with
      | none => exact ih leads fits.2.2 further some_
      | some s =>
          obtain ⟨_, fit, fits⟩ := fits
          have outside : info.localName ∉ s.targets := by
            intro target
            obtain ⟨other, info', found', same, mutable⟩ := fit.targets _ target
            obtain rfl := sound.named var other info info' found found' same.symm
            rw [found, Option.some.injEq] at found'
            subst found'
            rw [fixed] at mutable
            cases mutable
          have other : s.declared? ≠ some info.localName := by
            intro declared
            rcases fit.declares with ⟨none_, _⟩ | ⟨made, name, declared', makes, named⟩
            · rw [none_] at declared
              cases declared
            · obtain rfl := Option.some.inj (declared'.symm.trans declared)
              obtain rfl := named.unique sound ⟨info, found, rfl⟩
              exact absurd (Nat.lt_of_lt_of_le older within.size)
                (Nat.not_lt_of_le (within.fresh _ makes).1)
          have kept := s.exec_get? session some_ outside other
          have open_ : (s.exec session).2.env ≠ [] :=
            (Grew.of_exec fit session some_).ne_nil
          rw [walk]
          rcases outcome : s.exec session with ⟨_ | _, after⟩ <;> rw [outcome] at kept open_
          · exact ⟨kept, open_⟩
          · obtain ⟨same, open_'⟩ := ih leads fits further open_
            exact ⟨same.trans kept, open_'⟩
  | suspend => exact ⟨rfl, some_⟩
  | branch site condition thenRoute elseRoute rest thenIH elseIH ih =>
      obtain ⟨within, size, leadsThen, leadsElse, leads⟩ := leads
      have further := Nat.lt_of_lt_of_le older (Nat.le_trans within.size within.grows)
      obtain ⟨_, _, _, fitsThen, fitsElse, fits⟩ := fits
      rw [walk_branch]
      cases condition.evalCondition session.env with
      | error => exact ⟨rfl, some_⟩
      | ok test =>
          have first : ((if test then thenRoute else elseRoute).walk session).after.env.get?
              info.localName = session.env.get? info.localName ∧
              ((if test then thenRoute else elseRoute).walk session).after.env ≠ [] := by
            cases test
            · exact elseIH leadsElse fitsElse further some_
            · exact thenIH leadsThen fitsThen further some_
          dsimp only
          generalize (if test then thenRoute else elseRoute).walk session = walked at first
          rcases walked with ⟨fragments, _ | _ | _, after⟩
          · exact first
          · obtain ⟨same, open_⟩ := ih leads fits (Nat.lt_of_lt_of_le further leadsThen.size_le) first.2
            exact ⟨same.trans first.1, open_⟩
          · exact first

namespace Event

def store? : Event → Option Carried
  | .store carried => some carried
  | _ => none

def load? : Event → Option Carried
  | .load carried => some carried
  | _ => none

end Event

/-- What a resume comes to: its answer with the next state, what it stored, and the frame. -/
structure Turn where
  result : Except Failure (Option Value × Target)
  stored : List Carried
  frame : Frame

/-- What the code of a region comes to that was walked. -/
def Region.turn (region : Region) (body : Body) (analysis : Analysis) (frame : Frame)
    (walked : Route.Walked) : Turn :=
  match walked.result with
  | .error failure => ⟨.error failure, [], frame⟩
  | .ok none => ⟨.ok (none, .complete), [], frame⟩
  | .ok (some halt) =>
    let saved := frame.saveAll
      ((region.kept body analysis halt.site).map (Variable.held walked.after.env))
    match saved.fault with
    | some fault => ⟨.error { fault := .run fault }, saved.done, saved.frame⟩
    | none => ⟨(halt.payload.eval walked.after.env).map fun value =>
        (some value, (region.exits.lookup halt.site.id).getD .complete), saved.done, saved.frame⟩

theorem Region.turn_ok {region : Region} {body : Body} {analysis : Analysis} {frame : Frame}
    {walked : Route.Walked} {value : Option Value} {target : Target}
    (done : (region.turn body analysis frame walked).result = .ok (value, target)) :
    (walked.result = .ok none ∧ value = none ∧ target = .complete) ∨
    ∃ halt paid, walked.result = .ok (some halt) ∧
      halt.payload.eval walked.after.env = .ok paid ∧ value = some paid ∧
      target = (region.exits.lookup halt.site.id).getD .complete := by
  rw [turn] at done
  split at done
  · cases done
  · rename_i stopped
    cases done
    exact .inl ⟨stopped, rfl, rfl⟩
  · rename_i halt stopped
    dsimp only at done
    split at done
    · cases done
    · dsimp only at done
      cases pays : halt.payload.eval walked.after.env with
      | error => rw [pays] at done; cases done
      | ok paid =>
          rw [pays] at done
          cases done
          exact .inr ⟨halt, paid, stopped, pays, rfl, rfl⟩

/-- A course that comes to a turn. -/
structure Course.ComesTo (course : Course) (turn : Turn) : Prop where
  failed : ∀ failure, turn.result = .error failure → course.result = .error failure
  done : ∀ value target, turn.result = .ok (value, target) →
    course.result = .ok .left ∧ course.after.result = value ∧ course.after.next = some target
  frame : course.after.frame = turn.frame
  stored : course.events.filterMap Event.store? = turn.stored
  loaded : course.events.filterMap Event.load? = []

theorem Course.ComesTo.of_error {course : Course} {failure : Failure} {stored : List Carried}
    (stops : course.result = .error failure)
    (stores : course.events.filterMap Event.store? = stored)
    (loaded : course.events.filterMap Event.load? = []) :
    course.ComesTo ⟨.error failure, stored, course.after.frame⟩ where
  failed := by
    rintro _ ⟨⟩
    exact stops
  done := by
    rintro _ _ ⟨⟩
  frame := rfl
  stored := stores
  loaded := loaded

theorem Course.ComesTo.of_left {course : Course} {target : Target} {stored : List Carried}
    (leaves : course.result = .ok .left) (next : course.after.next = some target)
    (stores : course.events.filterMap Event.store? = stored)
    (loaded : course.events.filterMap Event.load? = []) :
    course.ComesTo ⟨.ok (course.after.result, target), stored, course.after.frame⟩ where
  failed := by
    rintro _ ⟨⟩
  done := by
    rintro _ _ ⟨⟩
    exact ⟨leaves, rfl, next⟩
  frame := rfl
  stored := stores
  loaded := loaded

theorem Fragment.filterMap_shown {kind : Event → Option Carried} (fragments : List Fragment)
    (none_ : ∀ fragment, kind (.fragment fragment) = none) :
    (fragments.flatMap shown).filterMap kind = [] := by
  refine List.filterMap_eq_nil_iff.mpr fun event member => ?_
  obtain ⟨fragment, rfl⟩ := mem_shown member
  exact none_ fragment

section Turn

variable {slots : SlotTable} {body : Body} {analysis : Analysis} {settings : Settings}
  {function : Function} {infos : List Variable} {s' : Stmt} {route tail : Route} {id : RegionId}
  {region : Region} {context behind : Context} {activation : Activation} {walked : Route.Walked}
  {course : Course}

theorem Analysis.Part.comes_to {flat : Session}
    (part : analysis.Part body route id region tail context behind)
    (built : body.Built function infos s' route) (covers : analysis.Covers body settings route)
    (spans : activation.frame.Spans body.symbols.variables.frame)
    (fresh : activation.result = none)
    (conducted : region.Conducted slots body analysis (region.holds context.size) activation
      (tail.walk flat) course) :
    course.ComesTo (region.turn body analysis activation.frame (tail.walk flat)) := by
  have shownStores := Fragment.filterMap_shown (tail.walk flat).fragments
    (fun _ => rfl : ∀ fragment, (Event.fragment fragment).store? = none)
  have shownLoads := Fragment.filterMap_shown (tail.walk flat).fragments
    (fun _ => rfl : ∀ fragment, (Event.fragment fragment).load? = none)
  cases conducted with
  | failed session failed own =>
      rw [Region.turn, failed]
      exact .of_error rfl shownStores shownLoads
  | finished session done =>
      rw [Region.turn, done]
      dsimp only
      rw [← fresh]
      refine .of_left rfl rfl ?_ ?_
      · rw [List.filterMap_append, shownStores]
        rfl
      · rw [List.filterMap_append, shownLoads]
        rfl
  | suspended halt session last stopped shared _ _ =>
      have halts := Route.mem_halts_of_walk stopped
      generalize tail.walk flat = walked at stopped shared shownStores shownLoads ⊢
      have known := part.kept_values built covers halts shared
      have below : ∀ info ∈ region.kept body analysis halt.site,
          info.slot.index < body.symbols.variables.frame.on info.slot.stack := fun info member =>
        built.sound.framed _ info ((part.mem_kept built covers halts).mp member).1
      have values : (region.kept body analysis halt.site).map (Variable.held session.env) =
          (region.kept body analysis halt.site).map (Variable.held walked.after.env) := by
        refine List.map_congr_left fun info member => ?_
        obtain ⟨value, here, there⟩ := known info member
        rw [Variable.held, Variable.held, here, there]
      have pays := part.payload_eval built halts shared
      have leaves := Emitted.leaving_saved slots halt.payload.untyped
        ((region.exits.lookup halt.site.id).getD .complete)
        (show (activation.withSession session).frame.Spans _ from spans) below
        (fun info member => (known info member).imp fun _ both => both.1) rfl
      rw [Region.leaving, leaves, Region.turn, stopped]
      simp only [Activation.withSession_session, pays,
        show (activation.withSession session).frame = activation.frame from rfl, values]
      generalize activation.frame.saveAll
        ((region.kept body analysis halt.site).map (Variable.held walked.after.env)) = saved
      have stores : (saved.done.map Event.store).filterMap Event.store? = saved.done := by
        simp [List.filterMap_map, Function.comp_def, Event.store?]
      have loads : (saved.done.map Event.store).filterMap Event.load? = [] := by
        simp [Event.load?]
      cases saved.fault with
      | some fault =>
          refine .of_error rfl ?_ ?_
          · simp [Course.behind, Course.ending, shownStores, stores]
          · simp [Course.behind, Course.ending, shownLoads, loads]
      | none =>
          cases halt.payload.eval walked.after.env with
          | error failure =>
              refine .of_error rfl ?_ ?_
              · simp [Course.behind, Course.ending, shownStores, stores, Event.store?]
              · simp [Course.behind, Course.ending, shownLoads, loads, Event.load?]
          | ok value =>
              refine .of_left rfl rfl ?_ ?_
              · simp [Course.behind, Course.ending, shownStores, stores, Event.store?]
              · simp [Course.behind, Course.ending, shownLoads, loads, Event.load?]

theorem Region.Conducted.left {held : VarId → Bool} {halt : Halt}
    (conducted : region.Conducted slots body analysis held activation walked course)
    (stopped : walked.result = .ok (some halt)) (done : course.result = .ok .left) :
    ∃ env, course.events.getLast? = some (.leave env) ∧
      Shared body.symbols (halt.site.known.filter held) env walked.after.env ∧
      walked.after.env ≠ [] := by
  cases conducted with
  | failed _ failed => cases stopped.symm.trans failed
  | finished _ passed => cases stopped.symm.trans passed
  | suspended halt' session last stopped' shared _ open_ =>
      cases stopped.symm.trans stopped'
      refine ⟨session.env, ?_, shared, open_⟩
      rw [Region.leaving] at done ⊢
      rcases Emitted.leaving_course slots (region.kept body analysis halt.site)
        halt.payload.untyped ((region.exits.lookup halt.site.id).getD .complete)
        (activation.withSession session) with ⟨_, _, _, shape⟩ | ⟨value, frame, _, shape⟩ <;>
          rw [shape] at done ⊢
      · cases done
      · simp [Course.behind, Course.ending]

/-- A turn fails as the body does by itself, or where a variable has a value that is not of its type.
-/
theorem Analysis.Part.turn_error {flat : Session} {frame : Frame} {failure : Failure}
    (part : analysis.Part body route id region tail context behind)
    (built : body.Built function infos s' route) (covers : analysis.Covers body settings route)
    (conducted : region.Conducted slots body analysis (region.holds context.size) activation
      (tail.walk flat) course)
    (failed : (region.turn body analysis frame (tail.walk flat)).result = .error failure) :
    failure.Own ∨ ∃ info value, body.symbols.variables.get? info.id = some info ∧
      Value.hasType value info.type = false ∧
      failure.fault = .run (.unpackable value info.encoding) := by
  rw [Region.turn] at failed
  cases conducted with
  | failed session stopped own =>
      rw [stopped] at failed
      cases failed
      exact .inl own
  | finished session passed =>
      rw [passed] at failed
      cases failed
  | suspended halt session last stopped shared _ _ =>
      have halts := Route.mem_halts_of_walk stopped
      rw [stopped] at failed
      dsimp only at failed
      split at failed
      · rename_i fault saves
        cases failed
        have known : ∀ info ∈ region.kept body analysis halt.site,
            body.symbols.variables.get? info.id = some info := fun info kept =>
          ((part.mem_kept built covers halts).mp kept).1
        obtain ⟨info, kept, unfit, is⟩ := built.sound.saveAll_unfit known saves
        exact .inr ⟨info, _, known info kept, unfit, congrArg Fault.run is⟩
      · dsimp only at failed
        cases pays : halt.payload.eval (tail.walk flat).after.env with
        | ok paid => rw [pays] at failed; cases failed
        | error found =>
            rw [pays] at failed
            cases failed
            have fits := (part.halt_fits built halts).2.2.1
            have reads := part.halt_reads halts
            exact .inl (shared.eval_own fits reads ((shared.eval fits reads).symm.trans pays))

theorem Analysis.Part.kept_apart (part : analysis.Part body route id region tail context behind)
    (built : body.Built function infos s' route) {halt : Halt} (halts : halt ∈ tail.halts)
    {info other : Variable} (found : body.symbols.variables.get? info.id = some info)
    (needs : halt.rest.Needs info.id)
    (found' : body.symbols.variables.get? other.id = some other)
    (needs' : halt.rest.Needs other.id) (same : info.slot = other.slot) : info = other := by
  have known := List.mem_of_mem_filter (part.known_behind built halts needs)
  have known' := List.mem_of_mem_filter (part.known_behind built halts needs')
  have equal := (part.halt_fits built halts).1.apart _ known _ known' info other found found' same
  rw [equal, found', Option.some.injEq] at found
  exact found.symm

theorem Analysis.Part.turn_records
    (part : analysis.Part body route id region tail context behind)
    (built : body.Built function infos s' route) (covers : analysis.Covers body settings route)
    {history : List Carried} {frame : Frame} (flat : Session)
    (records : frame.Records body.symbols.variables.frame history) :
    (region.turn body analysis frame (tail.walk flat)).frame.Records body.symbols.variables.frame
      (history ++ (region.turn body analysis frame (tail.walk flat)).stored) := by
  rw [Region.turn]
  cases result : (tail.walk flat).result with
  | error failure => rwa [List.append_nil]
  | ok halt =>
      cases halt with
      | none => rwa [List.append_nil]
      | some halt =>
          have room : ∀ carried ∈ (region.kept body analysis halt.site).map
              (Variable.held (tail.walk flat).after.env),
              carried.slot.index < body.symbols.variables.frame.on carried.slot.stack := by
            intro carried member
            obtain ⟨info, kept, rfl⟩ := List.mem_map.mp member
            exact built.sound.framed _ info
              ((part.mem_kept built covers (Route.mem_halts_of_walk result)).mp kept).1
          have after := records.saveAll room
          dsimp only
          split <;> exact after

/-- A variable with a value that was stored last in its slot. -/
def Recorded (symbols : Symbols) (history : List Carried) (env : Env) (var : VarId) : Prop :=
  ∃ info value, symbols.variables.get? var = some info ∧
    env.get? info.localName = some value ∧
    Carried.lastIn info.slot history = some (info.carry value)

/-- What is immutable and was not declared in the region has been needed since the region began,
where it is needed behind a suspension, and nothing has changed it. -/
theorem Analysis.Part.unchanged_behind
    (part : analysis.Part body route id region tail context behind)
    (built : body.Built function infos s' route) {session : Session} {halt : Halt}
    {info : Variable} (open_ : session.env ≠ [])
    (stopped : (tail.walk session).result = .ok (some halt))
    (found : body.symbols.variables.get? info.id = some info) (needs : halt.rest.Needs info.id)
    (fixed : info.mutable = false) (outside : info.id ∉ region.declared) :
    tail.Needs info.id ∧ (tail.walk session).after.env.get? info.localName =
      session.env.get? info.localName := by
  have notMade : ∀ maker ∈ tail.front, maker.declares ≠ some info.id := fun maker inside declares =>
    outside ((part.covers.declared info.id).mpr ⟨maker, inside, declares⟩)
  have older := Route.needs_of_halt part.leads part.older (Route.mem_halts_of_walk stopped) needs
    notMade
  exact ⟨older, (Route.walk_get? built.sound part.leads (part.fits built) found fixed
    (part.older info.id (older.known part.leads)) open_).1⟩

/-- What is needed behind a suspension stands in its slot there, provided that what is needed before
it as well stood there when the region began: a region stores again what can have another value. -/
theorem Analysis.Part.recorded_behind
    (part : analysis.Part body route id region tail context behind)
    (built : body.Built function infos s' route) (covers : analysis.Covers body settings route)
    {history : List Carried} {session : Session} {frame : Frame} {env : Env} {halt : Halt}
    {answer : Option Value × Target} (open_ : session.env ≠ [])
    (stopped : (tail.walk session).result = .ok (some halt))
    (shared : Shared body.symbols (halt.site.known.filter (region.holds context.size)) env
      (tail.walk session).after.env)
    (done : (region.turn body analysis frame (tail.walk session)).result = .ok answer)
    (recorded : ∀ var, tail.Needs var → halt.rest.Needs var →
      Recorded body.symbols history session.env var) {var : VarId} (needs : halt.rest.Needs var) :
    Recorded body.symbols
      (history ++ (region.turn body analysis frame (tail.walk session)).stored)
      (tail.walk session).after.env var := by
  have halts := Route.mem_halts_of_walk stopped
  obtain ⟨info, value, found, _, there⟩ := shared var (part.known_behind built halts needs)
  have number : info.id = var := built.sound.numbered var info found
  have found' : body.symbols.variables.get? info.id = some info := number.symm ▸ found
  have needs' : halt.rest.Needs info.id := number.symm ▸ needs
  have stored : (region.turn body analysis frame (tail.walk session)).stored =
      (region.kept body analysis halt.site).map (Variable.held (tail.walk session).after.env) := by
    rw [Region.turn, stopped] at done ⊢
    dsimp only at done ⊢
    cases fault : (frame.saveAll ((region.kept body analysis halt.site).map
        (Variable.held (tail.walk session).after.env))).fault with
    | some fault => rw [fault] at done; cases done
    | none => exact Frame.saveAll_done fault
  refine ⟨info, value, found, there, ?_⟩
  rw [stored, lastIn_append]
  have held : info.held (tail.walk session).after.env = info.carry value := by
    rw [Variable.held, there]
    rfl
  by_cases kept : info ∈ region.kept body analysis halt.site
  · have last : Carried.lastIn (info.held (tail.walk session).after.env).slot
        ((region.kept body analysis halt.site).map (Variable.held (tail.walk session).after.env)) =
          some (info.held (tail.walk session).after.env) := by
      refine lastIn_of_mem ?_ (List.mem_map_of_mem kept)
      intro carried member other member' same
      obtain ⟨first, kept', rfl⟩ := List.mem_map.mp member
      obtain ⟨second, kept'', rfl⟩ := List.mem_map.mp member'
      obtain ⟨there', needed, _⟩ := (part.mem_kept built covers halts).mp kept'
      obtain ⟨there'', needed', _⟩ := (part.mem_kept built covers halts).mp kept''
      rw [part.kept_apart built halts there' needed there'' needed' same]
    rw [held] at last
    exact congrArg (Option.or · _) last
  · -- It is immutable and was declared before the region, so nothing has changed it since.
    have other := mt (fun choice => (part.mem_kept built covers halts).mpr
      ⟨found', needs', choice⟩) kept
    simp only [not_or] at other
    obtain ⟨_, fixed, outside⟩ := other
    obtain ⟨older, same⟩ := part.unchanged_behind built open_ stopped found' needs'
      (by simpa using fixed) outside
    rw [number] at older
    obtain ⟨_, value', found'', there', last⟩ := recorded var older needs
    obtain rfl := Option.some.inj (found.symm.trans found'')
    rw [there', there, Option.some.injEq] at same
    subst same
    rw [lastIn_eq_none, Option.none_or, last]
    intro carried member same
    obtain ⟨second, kept', rfl⟩ := List.mem_map.mp member
    obtain ⟨there'', needed', _⟩ := (part.mem_kept built covers halts).mp kept'
    exact kept (part.kept_apart built halts found' needs' there'' needed' same ▸ kept')

end Turn
end Resumable
