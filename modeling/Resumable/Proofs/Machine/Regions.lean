import Mathlib
import Resumable.Proofs.Lowered
import Resumable.Proofs.Machine.Parts
import Resumable.Proofs.Machine.Transfers
import Resumable.Proofs.Route.Walk

/-! The code of a region runs as its part of the graph is walked, and leaves once: where the walk
suspends, with what is to be kept stored, or where it comes to the end. -/

namespace Resumable

namespace Emitted

variable {slots : SlotTable} {activation : Activation} {vars : List Variable} {payload : Expr}
  {target : Target}

theorem courseAll_leave_ne (codes : List Emitted) :
    (courseAll slots (codes ++ [leave]) activation).result ≠ .ok .onward := by
  rw [courseAll_append]
  rcases courseAll slots codes activation with ⟨events, _ | _ | _, after⟩ <;>
    exact fun impossible => by cases impossible

/-- What is written at a suspension fails, or it stores all there is to store, has a result, chooses
the next state once and leaves. -/
theorem leaving_course (slots : SlotTable) (vars : List Variable) (payload : Expr) (target : Target)
    (activation : Activation) :
    (∃ events failure frame, courseAll slots
      (vars.map Variable.store ++ [result payload, goTo target, leave]) activation =
        ⟨events, .error failure, activation.withFrame frame⟩) ∨
    ∃ value frame, payload.eval activation.session.env = .ok value ∧ courseAll slots
      (vars.map Variable.store ++ [result payload, goTo target, leave]) activation =
        ⟨(vars.map fun info => Event.store (info.held activation.session.env)) ++
          [Event.result payload, .goTo target, .leave activation.session.env], .ok .left,
          { activation.withFrame frame with result := some value, next := some target }⟩ := by
  rw [courseAll_append]
  rcases stores_plain slots vars activation with ⟨frame, stored⟩ | ⟨events, failure, frame, stored⟩
  · rw [stored]
    cases found : payload.eval activation.session.env with
    | error failure =>
        refine .inl ⟨(vars.map fun info => Event.store (info.held activation.session.env)) ++
          [Event.result payload], failure, frame, ?_⟩
        rw [Course.andThen, courseAll_result, Activation.withFrame_session, found]
        rfl
    | ok value =>
        refine .inr ⟨value, frame, rfl, ?_⟩
        rw [Course.andThen, courseAll_result, Activation.withFrame_session, found]
        rfl
  · rw [stored]
    exact .inl ⟨events, failure, frame, rfl⟩

end Emitted

section Region

variable {slots : SlotTable} {body : Body} {analysis : Analysis} {settings : Settings}
  {function : Function} {infos : List Variable} {s' : Stmt} {route tail : Route} {id : RegionId}
  {region : Region} {context behind : Context} {activation : Activation} {walked : Route.Walked}

theorem Region.leaving_ends {site : Site} {payload : Expr} : (Emitted.courseAll slots
    (region.leaving body analysis site payload) activation).result ≠ .ok .onward := by
  have shape : region.leaving body analysis site payload =
      ((region.kept body analysis site).map Variable.store ++ [Emitted.result payload.untyped,
        .goTo ((region.exits.lookup site.id).getD .complete)]) ++ [Emitted.leave] := by
    rw [Region.leaving, List.append_assoc]
    rfl
  rw [shape]
  exact Emitted.courseAll_leave_ne _

/-- The code of a region that runs as its part of a route is walked. -/
inductive Region.Conducted (slots : SlotTable) (body : Body) (analysis : Analysis)
    (region : Region) (held : VarId → Bool) (activation : Activation) (walked : Route.Walked) :
    Course → Prop where
  | failed {failure : Failure} (session : Session) : walked.result = .error failure →
    failure.Own → Conducted slots body analysis region held activation walked
      ⟨walked.fragments.flatMap Fragment.shown, .error failure, activation.withSession session⟩
  | finished (session : Session) : walked.result = .ok none →
    Conducted slots body analysis region held activation walked
      ⟨walked.fragments.flatMap Fragment.shown ++ [.goTo .complete, .leave session.env], .ok .left,
        { activation.withSession session with next := some .complete }⟩
  | suspended (halt : Halt) (session last : Session) : walked.result = .ok (some halt) →
    Shared body.symbols (halt.site.known.filter held) session.env walked.after.env →
    session.env ≠ [] → walked.after.env ≠ [] →
    Conducted slots body analysis region held activation walked
      (((Emitted.courseAll slots (region.leaving body analysis halt.site halt.payload)
        (activation.withSession session)).ending last).behind
          (walked.fragments.flatMap Fragment.shown))

/-- The code of a region runs from any environment that has what the region needs, and as a walk
that begins with the same values. -/
theorem Analysis.Part.conducted (slots : SlotTable) {flat : Session}
    (part : analysis.Part body route id region tail context behind)
    (built : body.Built function infos s' route) (some_ : activation.session.env ≠ [])
    (open_ : flat.env ≠ [])
    (live : Shared body.symbols region.liveIn.elems activation.session.env flat.env) :
    region.Conducted slots body analysis (region.holds context.size) activation (tail.walk flat)
      (Emitted.courseAll slots (region.conduct body analysis tail) activation) := by
  have shared : Shared body.symbols (context.known.filter (region.holds context.size))
      activation.session.env flat.env := by
    refine live.mono fun var member => ?_
    obtain ⟨known, held⟩ := List.mem_filter.mp member
    exact VarSet.mem_iff.mp ((part.live var).mpr (part.holds_old known held))
  have ends : ∀ site payload activation, (Emitted.courseAll slots
      (region.leaving body analysis site payload) activation).result ≠ .ok .onward :=
    fun _ _ _ => Region.leaving_ends
  have inner := Route.code_conducted built.sound ends part.leads (part.fits built)
    part.holds_reads shared some_ open_
  rw [Region.conduct, Emitted.courseAll_append]
  generalize Emitted.courseAll slots (tail.code (region.leaving body analysis)) activation = course
    at inner
  cases inner with
  | failed session shown failed own =>
      subst shown
      exact .failed session failed own
  | passed session shown done _ _ _ =>
      subst shown
      have falls : tail.flow none = .fallsThrough := by
        rw [Route.flow, if_pos (Route.passes_of_walk done)]
        rfl
      rw [falls]
      exact .finished session done
  | halted halt session last shown stopped shared' open_ openFlat =>
      subst shown
      rw [Course.andThen_of_ended]
      · exact .suspended halt session last stopped shared' open_ openFlat
      · exact ends halt.site halt.payload _

/-- The code of a region that runs as the graph is walked from an activation on. -/
inductive Region.Mirrors (slots : SlotTable) (body : Body) (analysis : Analysis)
    (region : Region) (activation : Activation) (fragments : List Fragment) (after : Session) :
    Ending → Course → Prop where
  | failed (failure : Failure) (session : Session) :
    Mirrors slots body analysis region activation fragments after (.failed failure)
      ⟨fragments.flatMap Fragment.shown, .error failure, activation.withSession session⟩
  | finished (session : Session) :
    Mirrors slots body analysis region activation fragments after .finished
      ⟨fragments.flatMap Fragment.shown ++ [.goTo .complete, .leave session.env], .ok .left,
        { activation.withSession session with next := some .complete }⟩
  | suspended {node : Node} {payload : Expr} {stored : List Variable} {target : Target}
    (session last : Session) : body.graph.node? node.id = some node →
    analysis.persisted body region node = .ok stored →
    region.exits.lookup node.id = some target →
    (∀ info ∈ stored, ∃ value, session.env.get? info.localName = some value ∧
      after.env.get? info.localName = some value) →
    payload.untyped.eval session.env = payload.eval after.env →
    Mirrors slots body analysis region activation fragments after (.suspended node.id payload)
      (((Emitted.courseAll slots
        (stored.map Variable.store ++ [.result payload.untyped, .goTo target, .leave])
        (activation.withSession session)).ending last).behind
          (fragments.flatMap Fragment.shown))

/-- Where code goes on behind a walk that has come to an ending, and what its result is. -/
def Region.GoesOn (region : Region) (result before : Option Value) (target : Target)
    (after : Session) : Ending → Prop
  | .failed _ => False
  | .finished => target = .complete ∧ result = before
  | .suspended id payload => region.exits.lookup id = some target ∧
    ∃ value, payload.eval after.env = .ok value ∧ result = some value

/-- Code that mirrors a walk and does not fail chooses the next state once and then leaves: behind
the end of the graph it completes the machine without a result, and at a suspension it goes on in the
exit of the region with the payload as its result. -/
theorem Region.Mirrors.leaves {fragments : List Fragment} {after : Session} {ending : Ending}
    {course : Course} {control : Control}
    (mirrors : region.Mirrors slots body analysis activation fragments after ending course)
    (done : course.result = .ok control) : control = .left ∧ ∃ events target env,
      course.events = events ++ [Event.goTo target, .leave env] ∧
      (∀ event ∈ events, ∀ other, event ≠ .goTo other) ∧
      course.after.next = some target ∧
      region.GoesOn course.after.result activation.result target after ending := by
  have calm : ∀ event ∈ fragments.flatMap Fragment.shown, ∀ other, event ≠ .goTo other := by
    intro event member other
    obtain ⟨fragment, rfl⟩ := Fragment.mem_shown member
    exact fun impossible => by cases impossible
  cases mirrors with
  | failed => cases done
  | finished session =>
      cases done
      exact ⟨rfl, _, .complete, session.env, rfl, calm, rfl, rfl, rfl⟩
  | @suspended _ payload stored target session last _ _ exit _ same =>
      rcases Emitted.leaving_course slots stored payload.untyped target (activation.withSession session)
        with ⟨events, failure, frame, shape⟩ | ⟨value, frame, found, shape⟩ <;> rw [shape] at done ⊢
      · cases done
      · cases done
        refine ⟨rfl, fragments.flatMap Fragment.shown ++
          ((stored.map fun info => Event.store (info.held session.env)) ++
            [Event.result payload.untyped]),
          target, session.env, ?_, ?_, rfl, exit, value, same ▸ found, rfl⟩
        · rw [List.append_assoc, List.append_assoc]
          rfl
        · intro event member other
          rcases List.mem_append.mp member with first | member
          · exact calm event first other
          · rcases List.mem_append.mp member with second | third
            · obtain ⟨info, _, rfl⟩ := List.mem_map.mp second
              exact fun impossible => by cases impossible
            · cases List.mem_singleton.mp third
              exact fun impossible => by cases impossible

theorem Analysis.Part.mirrors (part : analysis.Part body route id region tail context behind)
    (built : body.Built function infos s' route) (covers : analysis.Covers body settings route)
    {course : Course} (conducted : region.Conducted slots body analysis
      (region.holds context.size) activation (tail.walk activation.session) course) :
    region.Mirrors slots body analysis activation (tail.walk activation.session).fragments
      (tail.walk activation.session).after (tail.walk activation.session).ending course := by
  cases conducted with
  | failed session failed own =>
      rw [Route.Walked.ending, failed]
      exact .failed _ session
  | finished session done =>
      rw [Route.Walked.ending, done]
      exact .finished session
  | suspended halt session last stopped shared _ _ =>
      have halts := Route.mem_halts_of_walk stopped
      obtain ⟨node, present, is⟩ := Route.halt_at (built.laid.of_mem_tails part.inside) halts
      have exit := part.covers.exits halt halts
      have kept : analysis.persisted body region node = .ok (region.kept body analysis halt.site) :=
        Analysis.persisted_eq built.sound is.id is.scope
      rw [Route.Walked.ending, stopped, Region.leaving, exit, Option.getD_some]
      dsimp only
      rw [← is.id] at present exit ⊢
      exact .suspended session last present kept exit (part.kept_values built covers halts shared)
        (part.payload_eval built halts shared)

end Region

/-- The code of every region of a body means what its part of the graph does. From any environment
that has what the region needs, it shows the fragments of the walk from the start of the region, in
their order, and ends as that walk does. -/
theorem Region.code_mirrors {settings : Settings} {arity : Nat} {literal : Expr} {body : Body}
    {analysis : Analysis} {id : RegionId} {region : Region}
    (built : Body.build settings arity literal = .ok body)
    (analysed : body.analyze settings = .ok analysis) (present : analysis.region? id = some region) :
    ∃ arrival code log, Emit.prologue body analysis region = .ok arrival ∧
      body.emitState analysis region = (.ok ⟨region.id, arrival ++ code⟩, log) ∧
      ∀ (slots : SlotTable) (activation : Activation), activation.session.env ≠ [] →
        (∀ var ∈ region.liveIn, ∃ info value, body.symbols.variables.get? var = some info ∧
          activation.session.env.get? info.localName = some value) →
        ∃ fragments ending after,
          body.graph.Walks (some region.start) activation.session fragments ending after ∧
          region.Mirrors slots body analysis activation fragments after ending
            (Emitted.courseAll slots code activation) ∧
          ∀ control, (Emitted.courseAll slots code activation).result = .ok control →
            control = .left ∧ ∃ events target env,
              (Emitted.courseAll slots code activation).events =
                events ++ [.goTo target, .leave env] ∧
              (∀ event ∈ events, ∀ other, event ≠ .goTo other) ∧
              (Emitted.courseAll slots code activation).after.next = some target ∧
              region.GoesOn (Emitted.courseAll slots code activation).after.result
                activation.result target after ending := by
  obtain ⟨function, infos, s', route, _, parts⟩ := Body.build_ok built
  obtain ⟨analysis', analysed', covers⟩ := parts.analyze settings
  obtain rfl := Except.ok.inj (analysed'.symm.trans analysed)
  obtain ⟨tail, context, behind, part⟩ := parts.part_of_region covers present
  obtain ⟨arrives, emits⟩ := parts.emitState covers present part.inside part.covers.start
  refine ⟨region.arrival body analysis', region.conduct body analysis' tail,
    tail.front.map Site.id, arrives, emits, fun slots activation some_ bound => ?_⟩
  have live : Shared body.symbols region.liveIn.elems activation.session.env
      activation.session.env := by
    intro var listed
    obtain ⟨info, value, found, there⟩ := bound var (VarSet.mem_iff.mpr listed)
    exact ⟨info, value, found, there, there⟩
  have mirrors := part.mirrors parts covers (part.conducted slots parts some_ some_ live)
  refine ⟨_, _, _, ?_, mirrors, fun control done => mirrors.leaves done⟩
  rw [← part.covers.start]
  exact Route.walk_walks (parts.laid.of_mem_tails part.inside) activation.session

theorem Region.code_mirrors_fork : ∃ body analysis region,
    Body.build {} Source.fork.arity Source.fork.function = .ok body ∧
    body.analyze {} = .ok analysis ∧ analysis.region? 2 = some region ∧
    (∀ var ∈ region.liveIn, ∃ info value, body.symbols.variables.get? var = some info ∧
      Env.get? info.localName [[("x", .int 5)]] = some value) ∧
    ∃ code fragments ending after,
      body.graph.Walks (some region.start) { env := [[("x", .int 5)]] } fragments ending after ∧
      region.Mirrors (body.slotTable {}) body analysis
        { session := { env := [[("x", .int 5)]] }, words := [], references := [] } fragments after
        ending (Emitted.courseAll (body.slotTable {}) code
          { session := { env := [[("x", .int 5)]] }, words := [], references := [] }) := by
  have seen : (do
      let body ← Body.build {} Source.fork.arity Source.fork.function
      let analysis ← body.analyze {}
      return ((analysis.region? 2).map (fun region : Region => region.liveIn.elems),
        (body.symbols.variables.get? 2).map Variable.localName)) =
          .ok (some [2], some "x") := by cbv
  obtain ⟨body, built, seen⟩ := ok_bind seen
  obtain ⟨analysis, analysed, seen⟩ := ok_bind seen
  obtain ⟨live, named⟩ := Prod.mk.inj (Except.ok.inj seen)
  obtain ⟨region, present, elems⟩ := Option.map_eq_some_iff.mp live
  obtain ⟨info, found, name⟩ := Option.map_eq_some_iff.mp named
  have bound : ∀ var ∈ region.liveIn, ∃ info value, body.symbols.variables.get? var = some info ∧
      Env.get? info.localName [[("x", .int 5)]] = some value := by
    intro var member
    rw [VarSet.mem_iff, elems] at member
    obtain rfl := List.mem_singleton.mp member
    exact ⟨info, .int 5, found, by rw [name]; rfl⟩
  obtain ⟨_, code, _, _, _, mirrors⟩ := Region.code_mirrors built analysed present
  obtain ⟨fragments, ending, after, walks, mirrored, _⟩ := mirrors (body.slotTable {})
    { session := { env := [[("x", .int 5)]] }, words := [], references := [] }
    (List.cons_ne_nil _ _) bound
  exact ⟨body, analysis, region, built, analysed, present, bound, code, fragments, ending, after,
    walks, mirrored⟩

end Resumable
