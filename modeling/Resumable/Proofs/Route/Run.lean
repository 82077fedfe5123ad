import Resumable.Proofs.Eval.Steps
import Resumable.Proofs.Route.Front

/-! Running a route, at a stretch or up to the next suspension. No scope is ever left on the way, so
what a route declares keeps its value for good. -/

namespace Resumable.Route

/-- Runs to the end and hands out whatever the suspensions on the way have. -/
def exec : Route → Exec Unit
  | stop => pure ()
  | plain _ none rest => rest.exec
  | plain _ (some s) rest => do
    s.exec
    rest.exec
  | suspend _ payload rest => do
    Exec.hand (← Exec.value payload) {}
    rest.exec
  | branch _ condition thenRoute elseRoute rest => do
    if ← Exec.condition condition then thenRoute.exec else elseRoute.exec
    rest.exec

/-- What was run on the way to the next suspension, and how the way ended: in a failure, behind the
route, or at a suspension, whose payload has no value yet. -/
structure Walked where
  fragments : List Fragment
  result : Except Failure (Option Halt)
  after : Session

def Walked.behind (fragments : List Fragment) (walked : Walked) : Walked :=
  { walked with fragments := fragments ++ walked.fragments }

def Walked.andThen (walked : Walked) (rest : Route) (next : Session → Walked) : Walked :=
  match walked.result with
  | .ok none => (next walked.after).behind walked.fragments
  | .ok (some halt) => { walked with result := .ok (some (halt.followedBy rest)) }
  | .error _ => walked

/-- Walks up to the next suspension, if one is met. -/
def walk : Route → Session → Walked
  | stop, session => ⟨[], .ok none, session⟩
  | plain _ none rest, session => rest.walk session
  | plain _ (some s) rest, session =>
    match s.exec session with
    | (.ok _, after) => (rest.walk after).behind [.statement s]
    | (.error failure, after) => ⟨[.statement s], .error failure, after⟩
  | suspend site payload rest, session => ⟨[], .ok (some ⟨site, payload, rest⟩), session⟩
  | branch _ condition thenRoute elseRoute rest, session =>
    match condition.evalCondition session.env with
    | .error failure => ⟨[.condition condition], .error failure, session⟩
    | .ok test => ((if test then thenRoute.walk session else elseRoute.walk session).behind
        [.condition condition]).andThen rest fun after => rest.walk after

section Walk

variable {site : Site} {condition : Expr} {thenRoute elseRoute rest route : Route}
  {session : Session}

theorem walk_branch : (branch site condition thenRoute elseRoute rest).walk session =
    match condition.evalCondition session.env with
    | .error failure => ⟨[.condition condition], .error failure, session⟩
    | .ok test => (((if test then thenRoute else elseRoute).walk session).behind
        [.condition condition]).andThen rest rest.walk := by
  rw [walk]
  rcases condition.evalCondition session.env with _ | _ | _ <;> rfl

theorem passes_of_walk (done : (route.walk session).result = .ok none) : route.passes = true := by
  induction route generalizing session with
  | stop => rfl
  | plain _ statement rest ih =>
      cases statement with
      | none => exact ih done
      | some s =>
          rw [walk] at done
          rcases outcome : s.exec session with ⟨_ | _, after⟩ <;> rw [outcome] at done
          · cases done
          · exact ih done
  | suspend => cases done
  | branch _ condition thenRoute elseRoute rest thenIH elseIH ih =>
      rw [walk_branch] at done
      rcases tested : condition.evalCondition session.env with _ | test <;> rw [tested] at done
      · cases done
      · dsimp only at done
        rcases walked : (if test then thenRoute else elseRoute).walk session with
          ⟨fragments, _ | _ | _, after⟩ <;> rw [walked] at done
        · cases done
        · have inner := congrArg Walked.result walked
          have through : (thenRoute.passes || elseRoute.passes) = true := by
            cases test
            · exact Bool.or_eq_true_iff.mpr (.inr (elseIH inner))
            · exact Bool.or_eq_true_iff.mpr (.inl (thenIH inner))
          rw [passes, through, Bool.true_and]
          exact ih done
        · cases done

theorem mem_halts_of_walk {halt : Halt} (stopped : (route.walk session).result = .ok (some halt)) :
    halt ∈ route.halts := by
  induction route generalizing session halt with
  | stop => cases stopped
  | plain _ statement rest ih =>
      cases statement with
      | none => exact ih stopped
      | some s =>
          rw [walk] at stopped
          rcases outcome : s.exec session with ⟨_ | _, after⟩ <;> rw [outcome] at stopped
          · cases stopped
          · exact ih stopped
  | suspend =>
      cases stopped
      exact List.mem_cons_self
  | branch _ condition thenRoute elseRoute rest thenIH elseIH ih =>
      rw [walk_branch] at stopped
      rcases tested : condition.evalCondition session.env with _ | test <;> rw [tested] at stopped
      · cases stopped
      · dsimp only at stopped
        rcases walked : (if test then thenRoute else elseRoute).walk session with
          ⟨fragments, _ | _ | inner, after⟩ <;> rw [walked] at stopped <;>
          have found := congrArg Walked.result walked
        · cases stopped
        · have chosen := passes_of_walk found
          have through : (thenRoute.passes || elseRoute.passes) = true := by
            cases test
            · exact Bool.or_eq_true_iff.mpr (.inr chosen)
            · exact Bool.or_eq_true_iff.mpr (.inl chosen)
          rw [halts, if_pos through]
          exact List.mem_append_right _ (List.mem_append_right _ (ih stopped))
        · cases stopped
          cases test
          · exact List.mem_append_right _
              (List.mem_append_left _ (List.mem_map_of_mem (elseIH found)))
          · exact List.mem_append_left _ (List.mem_map_of_mem (thenIH found))

end Walk

section Exec

variable {session after : Session} {site : Site} {s : Stmt} {payload condition : Expr}
  {thenRoute elseRoute rest route : Route}

theorem exec_append (route tail : Route) :
    (route ++ tail).exec = route.exec >>= fun _ => tail.exec := by
  induction route with
  | stop => simp [exec]
  | plain _ statement _ ih => cases statement <;> simp [exec, ih]
  | suspend _ _ _ ih => simp [exec, ih]
  | branch _ condition thenRoute elseRoute rest _ _ ih =>
      simp only [branch_append, exec, ih, bind_assoc]
      congr 1
      funext test
      cases test <;> simp

theorem exec_append_apply (route tail : Route) (session : Session) :
    (route ++ tail).exec session = match route.exec session with
      | (.ok _, after) => tail.exec after
      | (.error failure, after) => (.error failure, after) := by
  rw [exec_append, Exec.bind_apply]
  rcases route.exec session with ⟨_ | _, after⟩ <;> rfl

theorem exec_statement (site : Site) (s : Stmt) (rest : Route) (session : Session) :
    (plain site (some s) rest).exec session = match s.exec session with
      | (.ok _, after) => rest.exec after
      | (.error failure, after) => (.error failure, after) := by
  rw [exec, Exec.bind_apply]
  rcases s.exec session with ⟨_ | _, after⟩ <;> rfl

theorem exec_suspend (site : Site) (payload : Expr) (rest : Route) (session : Session) :
    (suspend site payload rest).exec session = match payload.eval session.env with
      | .ok value => (match Exec.hand value {} session with
        | (.ok _, after) => rest.exec after
        | (.error failure, after) => (.error failure, after))
      | .error failure => (.error failure, session) := by
  rw [exec, Exec.bind_apply, Exec.value_apply]
  cases payload.eval session.env with
  | error => rfl
  | ok value =>
      dsimp only
      rw [Exec.bind_apply]
      rcases Exec.hand value {} session with ⟨_ | _, after⟩ <;> rfl

theorem exec_branch (site : Site) (condition : Expr) (thenRoute elseRoute rest : Route)
    (session : Session) :
    (branch site condition thenRoute elseRoute rest).exec session =
      match condition.evalCondition session.env with
      | .ok test => ((if test then thenRoute else elseRoute) ++ rest).exec session
      | .error failure => (.error failure, session) := by
  rw [exec, Exec.bind_apply, Exec.condition_apply]
  rcases condition.evalCondition session.env with _ | _ | _
  · rfl
  · exact (congrFun (exec_append elseRoute rest) session).symm
  · exact (congrFun (exec_append thenRoute rest) session).symm

/-- Where a walk has come to a suspension, the rest of the run begins with it. -/
theorem exec_eq_walk (route : Route) (session : Session) :
    route.exec session = match (route.walk session).result with
      | .ok none => (.ok (), (route.walk session).after)
      | .ok (some halt) => halt.route.exec (route.walk session).after
      | .error failure => (.error failure, (route.walk session).after) := by
  induction route generalizing session with
  | stop => rfl
  | plain _ statement rest ih =>
      cases statement with
      | none => exact ih session
      | some s =>
          rw [exec_statement, walk]
          rcases s.exec session with ⟨_ | _, after⟩
          · rfl
          · exact ih after
  | suspend site payload rest _ => rfl
  | branch site condition thenRoute elseRoute rest thenIH elseIH ih =>
      rw [exec_branch, walk_branch]
      cases condition.evalCondition session.env with
      | error => rfl
      | ok test =>
          have chosen : (if test then thenRoute else elseRoute).exec session =
              match ((if test then thenRoute else elseRoute).walk session).result with
              | .ok none => (.ok (), ((if test then thenRoute else elseRoute).walk session).after)
              | .ok (some halt) =>
                halt.route.exec ((if test then thenRoute else elseRoute).walk session).after
              | .error failure =>
                (.error failure, ((if test then thenRoute else elseRoute).walk session).after) := by
            cases test
            · exact elseIH session
            · exact thenIH session
          dsimp only
          rw [exec_append_apply, chosen]
          rcases (if test then thenRoute else elseRoute).walk session with
            ⟨fragments, _ | _ | halt, after⟩
          · rfl
          · exact ih after
          · exact (exec_append_apply halt.route rest after).symm

end Exec

end Resumable.Route
