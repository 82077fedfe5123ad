import Resumable.Proofs.Outcome
import Resumable.Proofs.Route.Front

/-! Routes that lie in a graph: every site is a node there, with the edges the route has. -/

namespace Resumable

namespace Graph

variable {graph graph' : Graph} {source target id : NodeId}

theorem size_push (graph : Graph) (node : Node) : (graph.push node).size = graph.size + 1 := by
  simp [size, push]

theorem node?_push (graph : Graph) (node : Node) (id : NodeId) :
    (graph.push node).node? id = if id = graph.size then some node else graph.node? id := by
  simp only [node?, push, size, Array.getElem?_push]
  rfl

theorem connect_eq (connected : graph.connect source target = .ok graph') :
    graph' = graph.modify source fun node =>
      { node with successors := node.successors ++ [target] } := by
  obtain ⟨_, _, further⟩ := ok_bind connected
  obtain ⟨_, _, done⟩ := ok_bind further
  exact (Except.ok.inj done).symm

theorem node?_connect (connected : graph.connect source target = .ok graph') (id : NodeId) :
    graph'.node? id = (graph.node? id).map fun node =>
      if id = source then { node with successors := node.successors ++ [target] } else node := by
  rw [connect_eq connected]
  simp only [node?, modify, Array.getElem?_modify]
  by_cases same : source = id
  · subst same
    simp
  · have apart : id ≠ source := fun equal => same equal.symm
    simp [same, apart]

theorem size_connect (connected : graph.connect source target = .ok graph') :
    graph'.size = graph.size := by
  rw [connect_eq connected]
  simp [size, modify]

end Graph

/-- A node with everything that a site says about it. -/
structure Node.Is (node : Node) (site : Site) (kind : NodeKind) (successors : List NodeId) :
    Prop where
  id : node.id = site.id
  kind : node.kind = kind
  scope : node.scope = site.scope
  reads : node.reads = site.reads
  declares : node.declares = site.declares
  successors : node.successors = successors

def Site.At (site : Site) (graph : Graph) (kind : NodeKind) (successors : List NodeId) : Prop :=
  ∃ node, graph.node? site.id = some node ∧ node.Is site kind successors

namespace Route

def plainKind : Option Stmt → NodeKind
  | none => .merge
  | some s => .statement s

/-- A route that lies in a graph and is followed there by a given node, if by any. -/
def Laid (graph : Graph) : Option NodeId → Route → Prop
  | _, stop => True
  | next, plain site statement rest =>
    site.At graph (plainKind statement) (rest.first?.or next).toList ∧ Laid graph next rest
  | next, suspend site payload rest =>
    site.At graph (.suspend payload) (rest.first?.or next).toList ∧ Laid graph next rest
  | next, branch site condition thenRoute elseRoute rest => ∃ merge thenHead elseHead,
    rest.first? = some merge ∧ thenRoute.first? = some thenHead ∧
    elseRoute.first? = some elseHead ∧
    site.At graph (.branch condition merge) [thenHead, elseHead] ∧
    Laid graph (some merge) thenRoute ∧ Laid graph (some merge) elseRoute ∧ Laid graph next rest

namespace Laid

variable {graph graph' : Graph} {next : Option NodeId} {route tail : Route}

theorem congr (laid : Laid graph next route)
    (same : ∀ id ∈ route.ids, graph'.node? id = graph.node? id) : Laid graph' next route := by
  have here : ∀ {site : Site} {kind : NodeKind} {successors : List NodeId}, site.id ∈ route.ids →
      site.At graph kind successors → site.At graph' kind successors := by
    intro site kind successors member at_
    obtain ⟨node, present, is⟩ := at_
    exact ⟨node, (same site.id member).trans present, is⟩
  induction route generalizing next with
  | stop => trivial
  | plain site _ rest ih | suspend site _ rest ih =>
      obtain ⟨first, last⟩ := laid
      refine ⟨here List.mem_cons_self first, ih last ?_ ?_⟩
      · exact fun id member => same id (List.mem_cons_of_mem _ member)
      · exact fun member => here (List.mem_cons_of_mem _ member)
  | branch site _ thenRoute elseRoute rest thenIH elseIH ih =>
      obtain ⟨merge, thenHead, elseHead, meets, starts, starts', fork, first, second, last⟩ := laid
      rw [ids_branch] at same here
      refine ⟨merge, thenHead, elseHead, meets, starts, starts', here List.mem_cons_self fork,
        thenIH first ?_ ?_, elseIH second ?_ ?_, ih last ?_ ?_⟩
      · exact fun id member => same id (by simp [member])
      · exact fun member => here (by simp [member])
      · exact fun id member => same id (by simp [member])
      · exact fun member => here (by simp [member])
      · exact fun id member => same id (by simp [member])
      · exact fun member => here (by simp [member])

theorem append (first : Laid graph (tail.first?.or next) route) (second : Laid graph next tail) :
    Laid graph next (route ++ tail) := by
  induction route with
  | stop => exact second
  | plain site _ rest ih | suspend site _ rest ih =>
      obtain ⟨here, further⟩ := first
      refine ⟨?_, ih further⟩
      change site.At graph _ ((rest ++ tail).first?.or next).toList
      rw [first?_append, Option.or_assoc]
      exact here
  | branch site _ thenRoute elseRoute rest _ _ ih =>
      obtain ⟨merge, thenHead, elseHead, meets, starts, starts', fork, inThen, inElse, last⟩ := first
      have joins : (rest ++ tail).first? = some merge := by
        rw [first?_append, meets]
        rfl
      exact ⟨merge, thenHead, elseHead, joins, starts, starts', fork, inThen, inElse, ih last⟩

theorem connect {last target : NodeId} (laid : Laid graph none route)
    (distinct : route.ids.Nodup) (ends : route.last? = some last)
    (connected : graph.connect last target = .ok graph') : Laid graph' (some target) route := by
  have moved : ∀ {site : Site} {kind : NodeKind} {successors : List NodeId}, site.id ≠ last →
      site.At graph kind successors → site.At graph' kind successors := by
    intro site kind successors apart at_
    obtain ⟨node, present, is⟩ := at_
    refine ⟨node, ?_, is⟩
    rw [Graph.node?_connect connected, present]
    simp [apart]
  have joined : ∀ {site : Site} {kind : NodeKind}, site.id = last →
      site.At graph kind [] → site.At graph' kind [target] := by
    intro site kind same at_
    obtain ⟨node, present, is⟩ := at_
    refine ⟨{ node with successors := node.successors ++ [target] }, ?_, ?_⟩
    · rw [Graph.node?_connect connected, present]
      simp [same]
    · exact { is with successors := by simp [is.successors] }
  induction route with
  | stop => cases ends
  | plain site _ rest ih | suspend site _ rest ih =>
      obtain ⟨here, further⟩ := laid
      obtain ⟨notBehind, distinctRest⟩ := List.nodup_cons.mp distinct
      rw [last?, Option.or_eq_some_iff] at ends
      rcases ends with inside | ⟨nothing, same⟩
      · have some_ : rest ≠ stop := fun empty => by
          rw [empty] at inside
          cases inside
        obtain ⟨head, starts⟩ := Option.ne_none_iff_exists'.mp (first?_eq_none.not.mpr some_)
        have apart : site.id ≠ last := fun equal => notBehind (equal ▸ mem_ids_of_last? inside)
        rw [starts] at here
        refine ⟨?_, ih further distinctRest inside⟩
        rw [starts]
        exact moved apart here
      · have empty : rest = stop := by
          cases rest with
          | stop => rfl
          | plain | suspend | branch => simp [last?] at nothing
        subst empty
        exact ⟨joined (Option.some.inj same) here, trivial⟩
  | branch site condition thenRoute elseRoute rest _ _ ih =>
      obtain ⟨merge, thenHead, elseHead, meets, starts, starts', fork, inThen, inElse, further⟩ :=
        laid
      rw [ids_branch] at distinct
      obtain ⟨notBehind, distinctRest⟩ := List.nodup_cons.mp distinct
      obtain ⟨_, distinctElse, apartThen⟩ := List.nodup_append.mp distinctRest
      obtain ⟨_, distinctLast, apartElse⟩ := List.nodup_append.mp distinctElse
      have inside : rest.last? = some last := by
        rw [last?, Option.or_eq_some_iff] at ends
        rcases ends with inside | ⟨nothing, _⟩
        · exact inside
        · cases rest with
          | stop => cases meets
          | plain | suspend | branch => simp [last?] at nothing
      have member := mem_ids_of_last? inside
      have others : ∀ id, id ≠ last → graph'.node? id = graph.node? id := by
        intro id apart
        rw [Graph.node?_connect connected]
        cases graph.node? id <;> simp [apart]
      refine ⟨merge, thenHead, elseHead, meets, starts, starts', moved ?_ fork,
        inThen.congr fun id here => others id ?_, inElse.congr fun id here => others id ?_,
        ih further distinctLast inside⟩
      · exact fun equal => notBehind (by simp [equal, member])
      · exact apartThen id here last (by simp [member])
      · exact apartElse id here last member

theorem of_mem_tails (laid : Laid graph next route) (inside : tail ∈ route.tails) :
    Laid graph next tail := by
  induction route generalizing next tail with
  | stop => cases inside
  | plain site _ rest ih | suspend site _ rest ih =>
      rcases List.mem_cons.mp inside with rfl | deeper
      · exact laid
      · exact ih laid.2 deeper
  | branch site _ thenRoute elseRoute rest thenIH elseIH ih =>
      rcases List.mem_cons.mp inside with rfl | deeper
      · exact laid
      · obtain ⟨merge, thenHead, elseHead, meets, starts, starts', fork, inThen, inElse, last⟩ := laid
        simp only [List.mem_append, List.mem_map] at deeper
        have join : rest.first?.or next = some merge := by rw [meets]; rfl
        rcases deeper with ⟨part, present, rfl⟩ | ⟨part, present, rfl⟩ | present
        · exact append (join ▸ thenIH inThen present) last
        · exact append (join ▸ elseIH inElse present) last
        · exact ih last present

end Laid
end Route
end Resumable
