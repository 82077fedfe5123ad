import Resumable.Proofs.Program.Names
import Resumable.Proofs.Route.Basic

/-! The route of a statement: blocks are laid end to end, and only conditions branch. -/

namespace Resumable

mutual

/-- A route that runs as a statement does, once its scopes are given up. -/
def Stmt.Flows : Stmt → Route → Prop
  | .evaluate (.suspend payload _) _, route => ∃ site, route = .suspend site payload .stop
  | .branch condition thenBranch none location, route =>
    ∃ fork skip merge thenRoute, thenBranch.Flows thenRoute ∧
      route = .branch fork condition thenRoute (.plain skip (some (.unit location)) .stop)
        (.plain merge none .stop)
  | .branch condition thenBranch (some elseBranch) _, route =>
    ∃ fork merge thenRoute elseRoute, thenBranch.Flows thenRoute ∧ elseBranch.Flows elseRoute ∧
      route = .branch fork condition thenRoute elseRoute (.plain merge none .stop)
  | .block [] location, route => ∃ site, route = .plain site (some (.unit location)) .stop
  | .block body _, route => Stmt.FlowsAll body route
  | s, route => ∃ site, route = .plain site (some s) .stop

def Stmt.FlowsAll : List Stmt → Route → Prop
  | [], route => route = .stop
  | s :: rest, route => ∃ first behind, s.Flows first ∧ Stmt.FlowsAll rest behind ∧
      route = first ++ behind

end

namespace Route

def declarations : Route → List (String × DataType)
  | stop => []
  | plain _ none rest => rest.declarations
  | plain _ (some s) rest => s.declarations ++ rest.declarations
  | suspend _ _ rest => rest.declarations
  | branch _ _ thenRoute elseRoute rest =>
    thenRoute.declarations ++ (elseRoute.declarations ++ rest.declarations)

theorem declarations_append (route tail : Route) :
    (route ++ tail).declarations = route.declarations ++ tail.declarations := by
  induction route with
  | stop => rfl
  | plain _ statement _ ih => cases statement <;> simp [declarations, ih]
  | suspend _ _ _ ih => simp [declarations, ih]
  | branch _ _ _ _ _ _ _ ih => simp [declarations, ih]

end Route

mutual

theorem Stmt.Flows.declarations_eq (s : Stmt) {route : Route} (flows : s.Flows route) :
    route.declarations = s.declarations := by
  match s with
  | .declare .. | .assign .. | .loop .. | .select .. | .attempt .. =>
      obtain ⟨site, rfl⟩ := flows
      exact List.append_nil _
  | .evaluate value location =>
      cases value with
      | suspend =>
          obtain ⟨site, rfl⟩ := flows
          rfl
      | _ =>
          obtain ⟨site, rfl⟩ := flows
          rfl
  | .branch _ thenBranch none _ =>
      obtain ⟨fork, skip, merge, thenRoute, flowsThen, rfl⟩ := flows
      exact (List.append_nil _).trans (Stmt.Flows.declarations_eq thenBranch flowsThen)
  | .branch _ thenBranch (some elseBranch) _ =>
      obtain ⟨fork, merge, thenRoute, elseRoute, flowsThen, flowsElse, rfl⟩ := flows
      rw [Route.declarations, Stmt.declarations, Stmt.Flows.declarations_eq thenBranch flowsThen,
        Stmt.Flows.declarations_eq elseBranch flowsElse]
      exact congrArg _ (List.append_nil _)
  | .block [] _ =>
      obtain ⟨site, rfl⟩ := flows
      rfl
  | .block (first :: rest) _ => exact Stmt.FlowsAll.declarations_eq (first :: rest) flows

theorem Stmt.FlowsAll.declarations_eq (body : List Stmt) {route : Route}
    (flows : Stmt.FlowsAll body route) : route.declarations = Stmt.allDeclarations body := by
  match body with
  | [] =>
      obtain rfl : route = .stop := flows
      rfl
  | s :: rest =>
      obtain ⟨first, behind, flowsFirst, flowsRest, rfl⟩ := flows
      rw [Route.declarations_append, Stmt.allDeclarations, Stmt.Flows.declarations_eq s flowsFirst,
        Stmt.FlowsAll.declarations_eq rest flowsRest]

end

end Resumable
