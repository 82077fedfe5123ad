import Resumable.Proofs.Eval.Silent
import Resumable.Proofs.Lowering.Entry
import Resumable.Proofs.Machine.Order
import Resumable.Proofs.Route.Flat

/-! The round trip. A machine that is resumed until it completes hands out what its function hands
out when it is run as it is, as long as every variable has values of its type. -/

namespace Resumable

open Symbols

/-- A value that may stand under a local name: it has the type of the variable with that name. -/
def Symbols.Accepts (symbols : Symbols) (name : String) (value : Value) : Prop :=
  ∀ var info, symbols.variables.get? var = some info → info.localName = name →
    Value.hasType value info.type = true

section Fits

variable {symbols : Symbols}

theorem Symbols.Makes.admits (sound : symbols.Sound) {var : VarId} {made : String × DataType}
    (makes : Makes symbols var made) : Admits symbols.Accepts made := by
  obtain ⟨info, found, name, type⟩ := makes
  intro value fits other info' found' same
  obtain rfl := sound.named _ _ _ _ found found' (name.trans same.symm)
  obtain rfl := Option.some.inj (found.symm.trans found')
  rwa [type]

theorem Route.walk_yields {route : Route} (fits : route.Fits symbols) (session : Session) :
    (route.walk session).after.yields = session.yields := by
  induction route generalizing session with
  | stop => rfl
  | plain site statement rest ih =>
      cases statement with
      | none => exact ih fits.2.2 session
      | some s =>
          obtain ⟨source, outer, inner, renamed⟩ := fits.2.1.renamed
          have silent := source.exec_silent renamed session
          rw [walk]
          rcases outcome : s.exec session with ⟨_ | _, after⟩ <;> rw [outcome] at silent
          · exact silent
          · exact (ih fits.2.2 after).trans silent
  | suspend => rfl
  | branch site condition thenRoute elseRoute rest thenIH elseIH ih =>
      obtain ⟨_, _, _, fitsThen, fitsElse, fitsRest⟩ := fits
      rw [walk_branch]
      cases condition.evalCondition session.env with
      | error => rfl
      | ok test =>
          have first : ((if test then thenRoute else elseRoute).walk session).after.yields =
              session.yields := by
            cases test
            · exact elseIH fitsElse session
            · exact thenIH fitsThen session
          dsimp only
          generalize (if test then thenRoute else elseRoute).walk session = walked at first
          rcases walked with ⟨fragments, _ | _ | _, after⟩
          · exact first
          · exact (ih fitsRest after).trans first
          · exact first

end Fits

section Run

variable {lowered : Lowered} {settings settings' : Settings} {function : Function}
  {infos : List Variable} {s' : Stmt} {route tail : Route} {first inst : Instance}
  {past : List Instance} {args : List Value} {id : RegionId} {region : Region}
  {context behind : Context} {flat flat' : Session}

theorem Instance.Ready.congr
    (ready : inst.Ready lowered infos route past flat id region tail context behind)
    (same : flat'.env = flat.env) :
    inst.Ready lowered infos route past flat' id region tail context behind :=
  { ready with
    entry := fun zero => same.trans (ready.entry zero)
    open_ := same ▸ ready.open_
    recorded := fun later => same ▸ ready.recorded later }

theorem Analysis.Part.turn_typed {slots : SlotTable} {body : Body} {analysis : Analysis}
    {activation : Activation} {course : Course} {frame : Frame}
    (part : analysis.Part body route id region tail context behind)
    (built : body.Built function infos s' route) (covers : analysis.Covers body settings route)
    (conducted : region.Conducted slots body analysis (region.holds context.size) activation
      (tail.walk flat) course)
    (typed : ∀ env ∈ tail.stays flat, env.All body.symbols.Accepts) :
    (region.turn body analysis frame (tail.walk flat)).result =
      match (tail.walk flat).result with
      | .error failure => .error failure
      | .ok none => .ok (none, .complete)
      | .ok (some halt) => (halt.payload.eval (tail.walk flat).after.env).map fun value =>
        (some value, (region.exits.lookup halt.site.id).getD .complete) := by
  rw [Region.turn]
  cases conducted with
  | failed session stopped => rw [stopped]
  | finished session passed => rw [passed]
  | suspended halt session last stopped shared =>
      have halts := Route.mem_halts_of_walk stopped
      rw [Route.stays_eq_walk, stopped] at typed
      have all := typed _ List.mem_cons_self
      have known : ∀ info ∈ region.kept body analysis halt.site,
          body.symbols.variables.get? info.id = some info := fun info kept =>
        ((part.mem_kept built covers halts).mp kept).1
      have fits : (frame.saveAll ((region.kept body analysis halt.site).map
          (Variable.held (tail.walk flat).after.env))).fault = none := by
        refine Option.eq_none_iff_forall_ne_some.mpr fun fault failed => ?_
        obtain ⟨info, kept, unfit, _⟩ := built.sound.saveAll_unfit known failed
        obtain ⟨value, _, there⟩ := part.kept_values built covers halts shared info kept
        rw [Variable.held, there] at unfit
        exact absurd (unfit.symm.trans (all.get? there _ info (known info kept) rfl))
          Bool.false_ne_true
      rw [stopped]
      dsimp only
      rw [fits]

/-- A resume answers as the walk over its part of the route ends. -/
theorem Instance.Ready.answers (traced : lowered.Traced settings function infos s' route)
    (ready : inst.Ready lowered infos route past flat id region tail context behind)
    (within : inst.resumes < inst.maxResumes)
    (typed : ∀ env ∈ tail.stays flat, env.All lowered.body.symbols.Accepts) :
    inst.resume.1 = match (tail.walk flat).result with
      | .error failure => .error failure
      | .ok none => .ok none
      | .ok (some halt) => (halt.payload.eval (tail.walk flat).after.env).map some := by
  obtain ⟨events, arrived, course, resumes⟩ := ready.resumes traced
  have answer := resumes.answer within
  rw [ready.part.turn_typed traced.built traced.covers resumes.conducted typed] at answer
  rw [answer]
  rcases (tail.walk flat).result with failure | _ | halt
  · rfl
  · rfl
  · cases pays : halt.payload.eval (tail.walk flat).after.env <;> simp only [pays, Except.map]

theorem Instance.runFrom_complete (complete : inst.state = .complete) (allowed : Nat)
    (yielded : List Value) : inst.runFrom allowed yielded = (.ok yielded.reverse, inst) := by
  cases allowed with
  | zero => rfl
  | succ allowed =>
      rw [runFrom, isComplete, decide_eq_true complete]
      rfl

/-- A machine that is ready to go on hands out what is left of the route, behind what was handed out
before. -/
theorem Instance.Ready.runs (traced : lowered.Traced settings function infos s' route)
    (started : Instance.start lowered.machine args settings' = .ok first)
    (enough : lowered.analysis.regions.length ≤ settings'.maxResumes) (allowed : Nat)
    {yielded : List Value} (reaches : first.Reaches past inst)
    (ready : inst.Ready lowered infos route past flat id region tail context behind)
    (heard : flat.yields = some yielded)
    (typed : ∀ env ∈ tail.stays flat, env.All lowered.body.symbols.Accepts)
    (left : lowered.analysis.regions.length < past.length + allowed) :
    (inst.runFrom allowed yielded).1 = Exec.answer (tail.exec flat) := by
  induction allowed generalizing past inst id region tail context behind flat yielded with
  | zero =>
      have short := (reaches.along traced started).length_lt ready.state ready.part.present
      omega
  | succ allowed ih =>
      have along := reaches.along traced started
      have short := along.length_lt ready.state ready.part.present
      have fresh := Instance.start_fresh started
      have within : inst.resumes < inst.maxResumes := by
        rw [along.count, along.limit, fresh.1, fresh.2]
        omega
      have onward : inst.isComplete = false := by
        rw [Instance.isComplete, ready.state]
        rfl
      have answers := ready.answers traced within typed
      have silent := (tail.walk_yields (ready.part.fits traced.built) flat).trans heard
      rw [Route.stays_eq_walk] at typed
      rw [Instance.runFrom, onward, Route.exec_eq_walk]
      rcases resumed : inst.resume with ⟨failure | value, next⟩
      · rw [resumed] at answers
        rcases stopped : (tail.walk flat).result with found | _ | halt <;> rw [stopped] at answers
        · cases answers
          rfl
        · cases answers
        · dsimp only at answers
          cases pays : halt.payload.eval (tail.walk flat).after.env with
          | ok => rw [pays] at answers; cases answers
          | error found =>
              rw [pays] at answers
              cases answers
              dsimp only
              rw [Halt.route, Route.exec_suspend, pays]
              rfl
      · rcases ready.step traced resumed with ⟨stopped, rfl, complete⟩ |
          ⟨halt, paid, stopped, pays, rfl, goes, further⟩
        · rw [stopped, Exec.answer, silent]
          exact congrArg Prod.fst (Instance.runFrom_complete complete allowed yielded)
        · rw [stopped] at typed ⊢
          dsimp only at typed ⊢
          rw [Halt.route, Route.stays, pays] at typed
          rw [Halt.route, Route.exec_suspend, pays]
          simp only [Exec.hand_apply, silent] at typed ⊢
          cases starts : halt.rest.first? with
          | none =>
              rw [Route.target, starts] at goes
              rw [Route.first?_eq_none.mp starts]
              exact congrArg Prod.fst (Instance.runFrom_complete goes allowed (paid :: yielded))
          | some e =>
              obtain ⟨region', context', behind', ready'⟩ := further e starts
              refine ih (.resume reaches resumed) (ready'.congr rfl) rfl
                (fun env there => typed env (List.mem_cons_of_mem _ there)) ?_
              rw [List.length_append, List.length_singleton]
              omega

theorem Lowered.Traced.start_ok (traced : lowered.Traced settings function infos s' route)
    (accepted : checkArgs (function.params.map fun param => (param.name, param.type)) args = .ok ())
    (settings' : Settings) :
    ∃ first, Instance.start lowered.machine args settings' = .ok first ∧ first.args = args := by
  have taken : checkArgs (lowered.machine.params.map fun param => (param.name, param.type)) args =
      .ok () := by
    refine checkArgs_of_fits ?_
    rw [traced.emitted.params, List.map_map]
    exact List.forall₂_map_left_iff.mpr (traced.built.accepts accepted)
  cases started : Instance.start lowered.machine args settings' with
  | error => rw [Instance.start, taken] at started; cases started
  | ok first =>
      obtain ⟨_, _, done⟩ := ok_bind started
      cases done
      exact ⟨_, rfl, rfl⟩

theorem Body.Built.admits {body : Body} (built : body.Built function infos s' route)
    (accepted : checkArgs (function.params.map fun param => (param.name, param.type)) args = .ok ()) :
    (Parameter.typing function.params).Covers body.symbols.Accepts
        [Parameter.naming function.params infos] ∧
      (∀ made ∈ s'.declarations, Admits body.symbols.Accepts made) ∧
      (Variable.entry infos args).env.All body.symbols.Accepts := by
  refine ⟨fun name localName found => ?_, fun made member => ?_, ?_⟩
  · rw [Naming.find?, Naming.find?, Option.or_none] at found
    obtain ⟨var, type, typed, makes⟩ := Parameter.naming_makes built.becomes found
    exact ⟨type, typed, makes.admits built.sound⟩
  · obtain ⟨var, makes⟩ := built.makes made member
    exact makes.admits built.sound
  · refine Env.All.defineAll (fun scope there entry inside => ?_) ?_
    · obtain rfl := List.mem_singleton.mp there
      cases inside
    · refine List.forall₂_map_left_iff.mpr (List.forall₂_iff_zip.mpr
        ⟨(built.accepts accepted).length_eq, fun {info arg} member => ?_⟩)
      have fits := List.forall₂_zip (built.accepts accepted) member
      have found := built.param_found (List.of_mem_zip member).1
      have makes : Makes body.symbols info.id (info.localName, info.type) := ⟨info, found, rfl, rfl⟩
      exact makes.admits built.sound arg fits

end Run

/-- The round trip. Where no block has a declaration as its only statement and all values are of the
types of their variables, a machine with a resume for every region hands out what its function hands
out, or fails as the function does. -/
theorem Source.round_trip {source : Source} {settings settings' : Settings} {lowered : Lowered}
    {function : Function} {args : List Value} (lowers : source.lower settings = .ok lowered)
    (literal : source.function.function? = some function)
    (sheltered : function.body.sheltered = true)
    (accepted : checkArgs (function.params.map fun param => (param.name, param.type)) args = .ok ())
    (typed : ∀ binding ∈ function.bindings args, binding.Typed)
    (enough : lowered.analysis.regions.length ≤ settings'.maxResumes) :
    ∃ first, Instance.start lowered.machine args settings' = .ok first ∧
      first.runToCompletion.1 = source.function.runDirect args := by
  obtain ⟨_, infos, s', route, literal', traced⟩ := Source.lower_traced lowers
  obtain rfl := Option.some.inj (literal.symm.trans literal')
  have built := traced.built
  have renamed := built.renamed (Stmt.contained_of_sheltered _ sheltered)
  have paired := built.paired accepted
  obtain ⟨naming, twin, _⟩ := function.body.exec_flows renamed built.flows paired
  obtain ⟨covers, makes, all⟩ := built.admits accepted
  obtain ⟨stays, _⟩ :=
    function.body.stays_fits renamed built.flows paired covers makes typed all
  obtain ⟨first, started, same⟩ := traced.start_ok accepted settings'
  obtain ⟨region, context, behind, ready⟩ := Instance.start_ready traced started
  have entry : (Variable.entry infos args).env = first.entryEnv 0 := by
    rw [ready.entryEnv traced, same]
    rfl
  have runs := Instance.Ready.runs traced started enough first.allowance .start
    (ready.congr entry) rfl stays (by
      rw [Instance.allowance, (Instance.start_fresh started).1, (Instance.start_fresh started).2]
      simp only [List.length_nil]
      omega)
  refine ⟨first, started, ?_⟩
  rw [Expr.runDirect, literal]
  exact runs.trans ((twin.answer rfl).trans (Function.runDirect_eq accepted).symm)

theorem Source.round_trip_fork : ∃ lowered function first, fork.lower {} = .ok lowered ∧
    fork.function.function? = some function ∧ function.body.sheltered = true ∧
    checkArgs (function.params.map fun param => (param.name, param.type)) [.bool false, .int 2] =
      .ok () ∧
    (∀ binding ∈ function.bindings [.bool false, .int 2], binding.Typed) ∧
    lowered.analysis.regions.length ≤ ({} : Settings).maxResumes ∧
    Instance.start lowered.machine [.bool false, .int 2] {} = .ok first ∧
    first.runToCompletion.1 = fork.function.runDirect [.bool false, .int 2] := by
  obtain ⟨lowered, _, done, _, _, length, _⟩ := Source.fork_turns_back
  have seen : fork.function.function?.map (fun function => (function.body.sheltered,
      checkArgs (function.params.map fun param => (param.name, param.type)) [.bool false, .int 2],
      (function.bindings [.bool false, .int 2]).all fun binding =>
        binding.value.hasType binding.type)) = some (true, .ok (), true) := by cbv
  obtain ⟨function, literal, same⟩ := Option.map_eq_some_iff.mp seen
  obtain ⟨sheltered, rest⟩ := Prod.mk.inj same
  obtain ⟨accepted, typed⟩ := Prod.mk.inj rest
  have enough : lowered.analysis.regions.length ≤ ({} : Settings).maxResumes := by
    rw [length]
    decide
  obtain ⟨first, started, runs⟩ := Source.round_trip done literal sheltered accepted
    (List.all_eq_true.mp typed) enough
  exact ⟨lowered, function, first, done, literal, sheltered, accepted, List.all_eq_true.mp typed,
    enough, started, runs⟩

end Resumable
