import Resumable.Proofs.Eval.Bindings
import Resumable.Proofs.Route.Flow
import Resumable.Proofs.Route.Run

/-! The run of a route beside that of the statement it stands for. The statement enters a scope for
each of its blocks and the route enters none: what a block declared is not referred to behind it. -/

namespace Resumable

namespace Route

/-- The environments at the suspensions that a run comes to. -/
def stays : Route → Session → List Env
  | stop, _ => []
  | plain _ none rest, session => rest.stays session
  | plain _ (some s) rest, session =>
    match s.exec session with
    | (.ok _, after) => rest.stays after
    | (.error _, _) => []
  | suspend _ payload rest, session => session.env ::
    match payload.eval session.env with
    | .ok value => (match Exec.hand value {} session with
      | (.ok _, after) => rest.stays after
      | (.error _, _) => [])
    | .error _ => []
  | branch _ condition thenRoute elseRoute rest, session =>
    match condition.evalCondition session.env with
    | .ok test => (if test then thenRoute.stays session else elseRoute.stays session) ++
      match (if test then thenRoute else elseRoute).exec session with
      | (.ok _, after) => rest.stays after
      | (.error _, _) => []
    | .error _ => []

section Stays

variable {site : Site} {s : Stmt} {payload condition : Expr} {thenRoute elseRoute rest : Route}
  {session : Session}

theorem stays_statement : (plain site (some s) rest).stays session =
    match s.exec session with
    | (.ok _, after) => rest.stays after
    | (.error _, _) => [] := by
  rw [stays]

theorem stays_branch : (branch site condition thenRoute elseRoute rest).stays session =
    match condition.evalCondition session.env with
    | .ok test => (if test then thenRoute else elseRoute).stays session ++
      match (if test then thenRoute else elseRoute).exec session with
      | (.ok _, after) => rest.stays after
      | (.error _, _) => []
    | .error _ => [] := by
  rw [stays]
  rcases condition.evalCondition session.env with _ | _ | _ <;> rfl

theorem stays_append (route tail : Route) (session : Session) :
    (route ++ tail).stays session = route.stays session ++
      match route.exec session with
      | (.ok _, after) => tail.stays after
      | (.error _, _) => [] := by
  induction route generalizing session with
  | stop => rfl
  | plain site statement rest ih =>
      cases statement with
      | none => exact ih session
      | some s =>
          rw [plain_append, stays_statement, stays_statement, exec_statement]
          rcases s.exec session with ⟨_ | _, after⟩
          · rfl
          · exact ih after
  | suspend site payload rest ih =>
      rw [suspend_append, stays, stays, exec_suspend, List.cons_append]
      congr 1
      cases payload.eval session.env with
      | error => rfl
      | ok value =>
          dsimp only
          rcases Exec.hand value {} session with ⟨_ | _, after⟩
          · rfl
          · exact ih after
  | branch site condition thenRoute elseRoute rest thenIH elseIH ih =>
      rw [branch_append, stays_branch, stays_branch, exec_branch]
      cases condition.evalCondition session.env with
      | error => rfl
      | ok test =>
          dsimp only
          rw [exec_append_apply, List.append_assoc]
          congr 1
          rcases (if test then thenRoute else elseRoute).exec session with ⟨_ | _, after⟩
          · rfl
          · exact ih after

theorem stays_eq_walk (route : Route) (session : Session) :
    route.stays session = match (route.walk session).result with
      | .ok (some halt) => halt.route.stays (route.walk session).after
      | _ => [] := by
  induction route generalizing session with
  | stop => rfl
  | plain site statement rest ih =>
      cases statement with
      | none => exact ih session
      | some s =>
          rw [stays_statement, walk]
          rcases s.exec session with ⟨_ | _, after⟩
          · rfl
          · exact ih after
  | suspend site payload rest _ => rfl
  | branch site condition thenRoute elseRoute rest thenIH elseIH ih =>
      rw [stays_branch, walk_branch]
      cases condition.evalCondition session.env with
      | error => rfl
      | ok test =>
          have chosen : (if test then thenRoute else elseRoute).stays session =
              match ((if test then thenRoute else elseRoute).walk session).result with
              | .ok (some halt) =>
                halt.route.stays ((if test then thenRoute else elseRoute).walk session).after
              | _ => [] := by
            cases test
            · exact elseIH session
            · exact thenIH session
          dsimp only
          rw [chosen, exec_eq_walk]
          rcases (if test then thenRoute else elseRoute).walk session with
            ⟨fragments, _ | _ | halt, after⟩
          · rfl
          · exact ih after
          · exact (stays_append halt.route rest after).symm

end Stays

section Single

variable {site : Site} {s : Stmt} {payload : Expr} {session : Session}

theorem exec_single : (plain site (some s) stop).exec session = s.exec session := by
  rw [exec_statement]
  rcases s.exec session with ⟨_ | _, after⟩ <;> rfl

theorem stays_single : (plain site (some s) stop).stays session = [] := by
  rw [stays_statement]
  rcases s.exec session with ⟨_ | _, after⟩ <;> rfl

theorem exec_suspension (heard : session.yields.isSome) (mark : Mark) (location : Location) :
    (suspend site payload stop).exec session =
      (Stmt.evaluate (.suspend payload mark) location).exec session := by
  obtain ⟨yields, collects⟩ := Option.isSome_iff_exists.mp heard
  rw [exec_suspend, Stmt.exec_evaluate]
  simp only [Expr.payload?, Exec.hand_apply, collects]
  cases payload.eval session.env <;> rfl

theorem stays_suspension : (suspend site payload stop).stays session = [session.env] := by
  rw [stays]
  cases payload.eval session.env with
  | error => rfl
  | ok value =>
      dsimp only
      rcases Exec.hand value {} session with ⟨_ | _, after⟩ <;> rfl

theorem exec_fork (fork merge : Site) (condition : Expr) (thenRoute elseRoute : Route)
    (session : Session) :
    (branch fork condition thenRoute elseRoute (plain merge none stop)).exec session =
      match condition.evalCondition session.env with
      | .ok test => (if test then thenRoute else elseRoute).exec session
      | .error failure => (.error failure, session) := by
  rw [exec_branch]
  cases condition.evalCondition session.env with
  | error => rfl
  | ok test =>
      dsimp only
      rw [exec_append_apply]
      rcases (if test then thenRoute else elseRoute).exec session with ⟨_ | _, after⟩ <;> rfl

theorem stays_fork (fork merge : Site) (condition : Expr) (thenRoute elseRoute : Route)
    (session : Session) :
    (branch fork condition thenRoute elseRoute (plain merge none stop)).stays session =
      match condition.evalCondition session.env with
      | .ok test => (if test then thenRoute else elseRoute).stays session
      | .error _ => [] := by
  rw [stays_branch]
  cases condition.evalCondition session.env with
  | error => rfl
  | ok test =>
      dsimp only
      rcases (if test then thenRoute else elseRoute).exec session with ⟨_ | _, after⟩ <;>
        exact List.append_nil _

end Single
end Route

section Scopes

variable {loud : Bool} {naming : Naming} {namings : List Naming} {source flat : Session}
  {code : Exec Unit} {second : Except Failure Unit × Session}

theorem Paired.enter (paired : Paired loud namings source flat) :
    Paired loud ([] :: namings) { source with env := source.env.push } flat :=
  ⟨paired.placed.push_source, paired.open_, paired.heard⟩

theorem Twin.leave (some_ : namings ≠ [])
    (twin : Twin loud (naming :: namings) { source with env := source.env.push } flat
      (code { source with env := source.env.push }) second) :
    Twin loud namings source flat (Exec.inScope code source) second := by
  have placed := twin.placed
  rw [Exec.inScope_apply]
  cases shape : (code { source with env := source.env.push }).2.env with
  | nil =>
      rw [shape] at placed
      cases placed.scopes
  | cons top below =>
      rw [shape] at placed
      have left := placed.pop_source
      have open_ : below ≠ [] := by
        rintro rfl
        cases left.scopes
        exact some_ rfl
      refine ⟨twin.result, twin.own, twin.yields, ?_, twin.open_⟩
      rw [Env.pop_cons open_]
      exact left

end Scopes

theorem Stmt.Flows.of_evaluate {value : Expr} {location : Location} {route : Route}
    (quiet : value.payload? = none) (flows : (Stmt.evaluate value location).Flows route) :
    ∃ site, route = .plain site (some (.evaluate value location)) .stop := by
  cases value with
  | suspend => cases quiet
  | _ => exact flows

mutual

/-- A route runs in step with the statement it stands for. -/
theorem Stmt.exec_flows (s : Stmt) {s' : Stmt} {route : Route} {outer : List Naming}
    {inner : Naming} {source flat : Session} (renamed : s.Renamed true outer inner s')
    (flows : s'.Flows route) (paired : Paired true (inner :: outer) source flat) :
    ∃ naming, Twin true (naming :: outer) source flat (s.exec source) (route.exec flat) ∧
      ((s.exec source).1 = .ok () ∨ s.declared? = none → naming = inner.after s s') := by
  have some_ : inner :: outer ≠ [] := List.cons_ne_nil _ _
  have whole : ∀ {site : Site}, route = .plain site (some s') .stop → _ := fun single =>
    show ∃ naming, Twin true (naming :: outer) source flat (s.exec source) (route.exec flat) ∧ _ by
      rw [single, Route.exec_single]
      exact s.exec_twin_after renamed paired
  match s with
  | .declare .. =>
      obtain ⟨_, _, _, _, _, rfl⟩ := id renamed
      obtain ⟨site, single⟩ := flows
      exact whole single
  | .assign .. =>
      obtain ⟨_, _, _, _, rfl⟩ := id renamed
      obtain ⟨site, single⟩ := flows
      exact whole single
  | .evaluate value location =>
      obtain ⟨value', inValue, rfl⟩ | ⟨_, payload, mark, payload', _, _, rfl⟩ := id renamed
      · obtain ⟨site, single⟩ := flows.of_evaluate inValue.payload?.2
        exact whole single
      · obtain ⟨site, rfl⟩ := flows
        rw [Route.exec_suspension (paired.heard rfl).2 mark location]
        exact Stmt.exec_twin_after _ renamed paired
  | .branch condition thenBranch none location =>
      obtain ⟨condition', then', inCondition, inThen, rfl⟩ := renamed
      obtain ⟨fork, skip, merge, thenRoute, flowsThen, rfl⟩ := flows
      refine ⟨inner, ?_, fun _ => rfl⟩
      rw [Stmt.exec_branch_none, Route.exec_fork,
        Expr.evalCondition_renamed paired.placed inCondition]
      rcases tested : condition.evalCondition source.env with failure | _ | _
      · exact paired.failed (Expr.evalCondition_own paired.placed inCondition tested)
      · exact paired.done
      · obtain ⟨naming, twin, _⟩ := thenBranch.exec_flows inThen flowsThen paired.enter
        exact twin.leave some_
  | .branch condition thenBranch (some elseBranch) location =>
      obtain ⟨condition', then', else', inCondition, inThen, inElse, rfl⟩ := renamed
      obtain ⟨fork, merge, thenRoute, elseRoute, flowsThen, flowsElse, rfl⟩ := flows
      refine ⟨inner, ?_, fun _ => rfl⟩
      rw [Stmt.exec_branch_some, Route.exec_fork,
        Expr.evalCondition_renamed paired.placed inCondition]
      rcases tested : condition.evalCondition source.env with failure | _ | _
      · exact paired.failed (Expr.evalCondition_own paired.placed inCondition tested)
      · obtain ⟨naming, twin, _⟩ := elseBranch.exec_flows inElse flowsElse paired.enter
        exact twin.leave some_
      · obtain ⟨naming, twin, _⟩ := thenBranch.exec_flows inThen flowsThen paired.enter
        exact twin.leave some_
  | .block [] location =>
      obtain ⟨body', empty, rfl⟩ := renamed
      obtain rfl : body' = [] := empty
      obtain ⟨site, rfl⟩ := flows
      refine ⟨inner, ?_, fun _ => rfl⟩
      rw [Stmt.exec_block, Route.exec_single]
      exact paired.enter.done.leave some_
  | .block (first :: rest) location =>
      obtain ⟨body', inBody, rfl⟩ := renamed
      obtain ⟨first', rest', inFirst, inRest, rfl⟩ := inBody
      obtain ⟨naming, twin⟩ := Stmt.execAll_flows (first :: rest) ⟨_, _, inFirst, inRest, rfl⟩ flows
        paired.enter
      refine ⟨inner, ?_, fun _ => rfl⟩
      rw [Stmt.exec_block]
      exact twin.leave some_
  | .loop .. =>
      obtain ⟨_, _, _, _, rfl⟩ := id renamed
      obtain ⟨site, single⟩ := flows
      exact whole single
  | .select .. =>
      obtain ⟨_, _, _, _, rfl⟩ := id renamed
      obtain ⟨site, single⟩ := flows
      exact whole single
  | .attempt .. =>
      obtain ⟨_, _, _, _, rfl⟩ := id renamed
      obtain ⟨site, single⟩ := flows
      exact whole single

theorem Stmt.execAll_flows (body : List Stmt) {body' : List Stmt} {route : Route}
    {outer : List Naming} {inner : Naming} {source flat : Session}
    (renamed : Stmt.RenamedAll true outer inner body body') (flows : Stmt.FlowsAll body' route)
    (paired : Paired true (inner :: outer) source flat) :
    ∃ naming, Twin true (naming :: outer) source flat (Stmt.execAll body source)
      (route.exec flat) := by
  match body with
  | [] =>
      obtain rfl : body' = [] := renamed
      obtain rfl : route = .stop := flows
      exact ⟨inner, paired.done⟩
  | s :: rest =>
      obtain ⟨s', rest', first, others, rfl⟩ := renamed
      obtain ⟨here, behind, flowsFirst, flowsRest, rfl⟩ := flows
      obtain ⟨naming, twin, reached⟩ := s.exec_flows first flowsFirst paired
      rw [Stmt.execAll_cons, Route.exec_append_apply]
      obtain ⟨failure, middle, middle', left, right⟩ | ⟨middle, middle', left, right⟩ :=
        twin.ends <;> rw [left, right] at twin ⊢ <;> rw [left] at reached
      · exact ⟨naming, twin⟩
      · rw [reached (.inl rfl)] at twin
        obtain ⟨last, tail⟩ := Stmt.execAll_flows rest others flowsRest (twin.paired paired.heard)
        exact ⟨last, twin.after tail⟩

end

mutual

/-- Where a statement binds values that fit, the route has such values at each suspension and
leaves such. -/
theorem Stmt.stays_fits (s : Stmt) {s' : Stmt} {route : Route} {fits : String → Value → Prop}
    {typing : Typing} {outer : List Naming} {inner : Naming} {source flat : Session}
    (renamed : s.Renamed true outer inner s') (flows : s'.Flows route)
    (paired : Paired true (inner :: outer) source flat)
    (covers : typing.Covers fits (inner :: outer))
    (makes : ∀ made ∈ s'.declarations, Admits fits made)
    (typed : ∀ binding ∈ s.bindings typing source, binding.Typed) (all : flat.env.All fits) :
    (∀ env ∈ route.stays flat, env.All fits) ∧ (route.exec flat).2.env.All fits := by
  have whole : ∀ {site : Site}, route = .plain site (some s') .stop →
      (∀ env ∈ route.stays flat, env.All fits) ∧ (route.exec flat).2.env.All fits := by
    intro site single
    rw [single, Route.exec_single, Route.stays_single]
    exact ⟨fun _ impossible => (by cases impossible),
      s.exec_fits renamed paired covers makes typed all⟩
  match s with
  | .declare .. =>
      obtain ⟨_, _, _, _, _, rfl⟩ := id renamed
      obtain ⟨site, single⟩ := flows
      exact whole single
  | .assign .. =>
      obtain ⟨_, _, _, _, rfl⟩ := id renamed
      obtain ⟨site, single⟩ := flows
      exact whole single
  | .evaluate value location =>
      obtain ⟨value', inValue, rfl⟩ | ⟨_, payload, mark, payload', _, _, rfl⟩ := id renamed
      · obtain ⟨site, single⟩ := flows.of_evaluate inValue.payload?.2
        exact whole single
      · obtain ⟨site, rfl⟩ := flows
        rw [Route.exec_suspension (paired.heard rfl).2 mark location, Route.stays_suspension]
        exact ⟨fun env here => List.mem_singleton.mp here ▸ all,
          Stmt.exec_fits _ renamed paired covers makes typed all⟩
  | .branch condition thenBranch none location =>
      obtain ⟨condition', then', inCondition, inThen, rfl⟩ := renamed
      obtain ⟨fork, skip, merge, thenRoute, flowsThen, rfl⟩ := flows
      rw [Stmt.bindings] at typed
      rw [Route.exec_fork, Route.stays_fork,
        Expr.evalCondition_renamed paired.placed inCondition]
      rcases tested : condition.evalCondition source.env with failure | _ | _
      · exact ⟨fun _ impossible => (by cases impossible), all⟩
      · exact ⟨fun _ impossible => (by cases impossible), all⟩
      · rw [tested] at typed
        exact thenBranch.stays_fits inThen flowsThen paired.enter covers.push makes typed all
  | .branch condition thenBranch (some elseBranch) location =>
      obtain ⟨condition', then', else', inCondition, inThen, inElse, rfl⟩ := renamed
      obtain ⟨fork, merge, thenRoute, elseRoute, flowsThen, flowsElse, rfl⟩ := flows
      obtain ⟨makesThen, makesElse⟩ := List.forall_mem_append.mp makes
      rw [Stmt.bindings] at typed
      rw [Route.exec_fork, Route.stays_fork,
        Expr.evalCondition_renamed paired.placed inCondition]
      rcases tested : condition.evalCondition source.env with failure | _ | _
      · exact ⟨fun _ impossible => (by cases impossible), all⟩
      · rw [tested] at typed
        exact elseBranch.stays_fits inElse flowsElse paired.enter covers.push makesElse typed all
      · rw [tested] at typed
        exact thenBranch.stays_fits inThen flowsThen paired.enter covers.push makesThen typed all
  | .block [] location =>
      obtain ⟨body', empty, rfl⟩ := renamed
      obtain rfl : body' = [] := empty
      obtain ⟨site, rfl⟩ := flows
      exact ⟨fun _ impossible => (by cases impossible), all⟩
  | .block (first :: rest) location =>
      obtain ⟨body', inBody, rfl⟩ := renamed
      obtain ⟨first', rest', inFirst, inRest, rfl⟩ := inBody
      rw [Stmt.bindings] at typed
      exact Stmt.allStays_fits (first :: rest) ⟨_, _, inFirst, inRest, rfl⟩ flows paired.enter
        covers.push makes typed all
  | .loop .. =>
      obtain ⟨_, _, _, _, rfl⟩ := id renamed
      obtain ⟨site, single⟩ := flows
      exact whole single
  | .select .. =>
      obtain ⟨_, _, _, _, rfl⟩ := id renamed
      obtain ⟨site, single⟩ := flows
      exact whole single
  | .attempt .. =>
      obtain ⟨_, _, _, _, rfl⟩ := id renamed
      obtain ⟨site, single⟩ := flows
      exact whole single

theorem Stmt.allStays_fits (body : List Stmt) {body' : List Stmt} {route : Route}
    {fits : String → Value → Prop} {typing : Typing} {outer : List Naming} {inner : Naming}
    {source flat : Session} (renamed : Stmt.RenamedAll true outer inner body body')
    (flows : Stmt.FlowsAll body' route) (paired : Paired true (inner :: outer) source flat)
    (covers : typing.Covers fits (inner :: outer))
    (makes : ∀ made ∈ Stmt.allDeclarations body', Admits fits made)
    (typed : ∀ binding ∈ Stmt.allBindings typing body source, binding.Typed)
    (all : flat.env.All fits) :
    (∀ env ∈ route.stays flat, env.All fits) ∧ (route.exec flat).2.env.All fits := by
  match body with
  | [] =>
      obtain rfl : body' = [] := renamed
      obtain rfl : route = .stop := flows
      exact ⟨fun _ impossible => (by cases impossible), all⟩
  | s :: rest =>
      obtain ⟨s', rest', first, others, rfl⟩ := renamed
      obtain ⟨here, behind, flowsFirst, flowsRest, rfl⟩ := flows
      obtain ⟨makesFirst, makesRest⟩ := List.forall_mem_append.mp makes
      obtain ⟨typedFirst, typedRest⟩ := List.forall_mem_append.mp typed
      have kept := s.stays_fits first flowsFirst paired covers makesFirst typedFirst all
      obtain ⟨naming, twin, reached⟩ := s.exec_flows first flowsFirst paired
      rw [Route.exec_append_apply, Route.stays_append, List.forall_mem_append]
      obtain ⟨failure, middle, middle', left, right⟩ | ⟨middle, middle', left, right⟩ :=
        twin.ends <;> rw [left, right] at twin <;> rw [left] at typedRest reached <;>
          rw [right] at kept ⊢
      · exact ⟨⟨kept.1, fun _ impossible => (by cases impossible)⟩, kept.2⟩
      · rw [reached (.inl rfl)] at twin
        obtain ⟨stays, after⟩ := Stmt.allStays_fits rest others flowsRest (twin.paired paired.heard)
          (covers.after first makesFirst) makesRest typedRest kept.2
        exact ⟨⟨kept.1, stays⟩, after⟩

end

end Resumable
