import Resumable.Proofs.Route.Laid
import Resumable.Proofs.Route.Run

/-! Walks over a graph in one environment. On a graph where a route lies, the graph is walked as the
route is. -/

namespace Resumable

/-- How a walk over a graph ends. -/
inductive Ending where
  | failed (failure : Failure)
  | suspended (node : NodeId) (payload : Expr)
  | finished

/-- What is run at a node, and where the walk goes on or ends. -/
def Node.visit (node : Node) (session : Session) :
    List Fragment × Except Ending (Option NodeId) × Session :=
  match node.kind with
  | .statement s =>
    match s.exec session with
    | (.ok _, after) => ([.statement s], .ok node.successors[0]?, after)
    | (.error failure, after) => ([.statement s], .error (.failed failure), after)
  | .branch condition _ =>
    match condition.evalCondition session.env with
    | .ok test =>
      ([.condition condition], .ok node.successors[if test then 0 else 1]?, session)
    | .error failure => ([.condition condition], .error (.failed failure), session)
  | .merge => ([], .ok node.successors[0]?, session)
  | .suspend payload => ([], .error (.suspended node.id payload), session)

namespace Graph

/-- A walk from a node, or from the end of the graph: what is run on it, how it ends and what it
leaves. -/
inductive Walks (graph : Graph) :
    Option NodeId → Session → List Fragment → Ending → Session → Prop where
  | finished (session : Session) : Walks graph none session [] .finished session
  | stops {id : NodeId} {node : Node} {session after : Session} {fragments : List Fragment}
    {ending : Ending} : graph.node? id = some node →
    node.visit session = (fragments, .error ending, after) →
    Walks graph (some id) session fragments ending after
  | goes {id : NodeId} {node : Node} {session middle after : Session}
    {fragments more : List Fragment} {next : Option NodeId} {ending : Ending} :
    graph.node? id = some node → node.visit session = (fragments, .ok next, middle) →
    Walks graph next middle more ending after →
    Walks graph (some id) session (fragments ++ more) ending after

variable {graph : Graph} {start : Option NodeId} {session after after' : Session}
  {fragments fragments' : List Fragment} {ending ending' : Ending}

/-- There is one walk from each node. -/
theorem Walks.unique (first : graph.Walks start session fragments ending after)
    (second : graph.Walks start session fragments' ending' after') :
    fragments' = fragments ∧ ending' = ending ∧ after' = after := by
  induction first generalizing fragments' ending' after' with
  | finished session =>
      cases second
      exact ⟨rfl, rfl, rfl⟩
  | stops present visit =>
      cases second with
      | stops present' visit' =>
          cases present.symm.trans present'
          cases visit.symm.trans visit'
          exact ⟨rfl, rfl, rfl⟩
      | goes present' visit' =>
          cases present.symm.trans present'
          cases visit.symm.trans visit'
  | goes present visit _ ih =>
      cases second with
      | stops present' visit' =>
          cases present.symm.trans present'
          cases visit.symm.trans visit'
      | goes present' visit' behind =>
          cases present.symm.trans present'
          cases visit.symm.trans visit'
          obtain ⟨rfl, rfl, rfl⟩ := ih behind
          exact ⟨rfl, rfl, rfl⟩

end Graph

namespace Route

variable {graph : Graph} {next : Option NodeId} {route : Route}

def Walked.Follows (graph : Graph) (start next : Option NodeId) (session : Session)
    (walked : Walked) : Prop :=
  match walked.result with
  | .error failure => graph.Walks start session walked.fragments (.failed failure) walked.after
  | .ok (some halt) => graph.Walks start session walked.fragments
      (.suspended halt.site.id halt.payload) walked.after
  | .ok none => ∀ fragments ending after, graph.Walks next walked.after fragments ending after →
      graph.Walks start session (walked.fragments ++ fragments) ending after

theorem Walked.Follows.visit {id : NodeId} {node : Node} {onward : Option NodeId}
    {session middle : Session}
    {fragments : List Fragment} {walked : Walked} (present : graph.node? id = some node)
    (visit : node.visit session = (fragments, .ok onward, middle))
    (follows : walked.Follows graph onward next middle) :
    (walked.behind fragments).Follows graph (some id) next session := by
  rcases walked with ⟨more, _ | _ | halt, after⟩
  · exact Graph.Walks.goes present visit follows
  · intro others ending last further
    rw [Walked.behind, List.append_assoc]
    exact Graph.Walks.goes present visit (follows others ending last further)
  · exact Graph.Walks.goes present visit follows

theorem Walked.Follows.after {start middle : Option NodeId} {fragments : List Fragment}
    {session session' : Session} {walked : Walked} (last : walked.Follows graph middle next session')
    (first : Walked.Follows graph start middle session ⟨fragments, .ok none, session'⟩) :
    (walked.behind fragments).Follows graph start next session := by
  rcases walked with ⟨more, _ | _ | halt, after⟩
  · exact first _ _ _ last
  · intro others ending after' further
    rw [Walked.behind, List.append_assoc]
    exact first _ _ _ (last others ending after' further)
  · exact first _ _ _ last

theorem walk_follows (laid : Laid graph next route) (session : Session) :
    (route.walk session).Follows graph (route.first?.or next) next session := by
  induction route generalizing next session with
  | stop => exact fun _ _ _ further => further
  | plain site statement rest ih =>
      obtain ⟨⟨node, present, is⟩, behind⟩ := laid
      have onward : node.successors[0]? = rest.first?.or next := by
        rw [is.successors]
        cases rest.first?.or next <;> rfl
      cases statement with
      | none =>
          have step : node.visit session = ([], .ok (rest.first?.or next), session) := by
            rw [Node.visit, is.kind, plainKind, onward]
          exact (ih behind _).visit present step
      | some s =>
          rw [walk]
          rcases outcome : s.exec session with ⟨failure | _, after⟩
          · refine Graph.Walks.stops present ?_
            simp only [Node.visit, is.kind, plainKind, outcome]
          · have step : node.visit session = ([.statement s], .ok (rest.first?.or next), after) := by
              simp only [Node.visit, is.kind, plainKind, outcome, onward]
            exact (ih behind _).visit present step
  | suspend site payload rest _ =>
      obtain ⟨⟨node, present, is⟩, _⟩ := laid
      refine Graph.Walks.stops present ?_
      rw [Node.visit, is.kind, is.id]
      rfl
  | branch site condition thenRoute elseRoute rest thenIH elseIH ih =>
      obtain ⟨merge, thenHead, elseHead, meets, starts, starts', ⟨node, present, is⟩, inThen,
        inElse, behind⟩ := laid
      rw [walk_branch]
      cases tested : condition.evalCondition session.env with
      | error failure =>
          refine Graph.Walks.stops present ?_
          simp only [Node.visit, is.kind, tested]
      | ok test =>
          have chosen : ((if test then thenRoute else elseRoute).walk session).Follows graph
              node.successors[if test then 0 else 1]? (some merge) session := by
            rw [is.successors]
            cases test
            · have inside := elseIH inElse session
              rwa [starts'] at inside
            · have inside := thenIH inThen session
              rwa [starts] at inside
          have step : node.visit session = ([.condition condition],
              .ok node.successors[if test then 0 else 1]?, session) := by
            simp only [Node.visit, is.kind, tested]
          have first := chosen.visit present step
          dsimp only
          rcases walked : (if test then thenRoute else elseRoute).walk session with
            ⟨fragments, _ | _ | halt, after⟩ <;> rw [walked] at first
          · exact first
          · have last := ih behind after
            rw [meets] at last
            exact last.after first
          · exact first

def Walked.ending (walked : Walked) : Ending :=
  match walked.result with
  | .error failure => .failed failure
  | .ok (some halt) => .suspended halt.site.id halt.payload
  | .ok none => .finished

theorem walk_walks (laid : Laid graph none route) (session : Session) :
    graph.Walks route.first? session (route.walk session).fragments (route.walk session).ending
      (route.walk session).after := by
  have follows := walk_follows laid session
  rw [Option.or_none] at follows
  rcases walked : route.walk session with ⟨fragments, _ | _ | halt, after⟩ <;>
    rw [walked] at follows
  · exact follows
  · have whole := follows [] .finished after (.finished after)
    rwa [List.append_nil] at whole
  · exact follows

end Route
end Resumable
