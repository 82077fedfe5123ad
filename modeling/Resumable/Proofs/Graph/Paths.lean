import Mathlib.Data.List.Nodup
import Resumable.Graph.Basic

/-! Ways along the edges of a graph, and what makes a graph of structured code: it has no cycles,
and every branch is entered at one node and left at another. -/

namespace Resumable.Graph

/-- The nodes of a way along edges, the first and the last one included. -/
inductive Path (graph : Graph) : NodeId → NodeId → List NodeId → Prop where
  | here (id : NodeId) : Path graph id id [id]
  | step {id next last : NodeId} {ids : List NodeId} : next ∈ graph.successors id →
    Path graph next last ids → Path graph id last (id :: ids)

/-- What is come to from a start without coming to another node. -/
def Before (graph : Graph) (stop start id : NodeId) : Prop :=
  ∃ ids, graph.Path start id ids ∧ stop ∉ ids

def EndsAt (graph : Graph) (id : NodeId) : Prop :=
  ∃ node, graph.node? id = some node ∧ node.successors = []

def ForksTo (graph : Graph) (fork merge : NodeId) : Prop :=
  ∃ node condition, graph.node? fork = some node ∧ node.kind = .branch condition merge

/-- The shape of a graph of structured code. `joins` counts the edges into a merge, and `sides` says
that the two ways between a branch and its merge have nothing in common and no other exit. -/
structure WellFormed (graph : Graph) : Prop where
  numbered : ∀ (position : Nat) node, graph.node? position = some node → node.id = position
  ordered : ∀ (position later : Nat) node node', position < later →
    graph.node? position = some node → graph.node? later = some node' → node.uid < node'.uid
  closed : ∀ id node, graph.node? id = some node → ∀ next ∈ node.successors,
    ∃ further, graph.node? next = some further
  forks : ∀ id node condition merge, graph.node? id = some node →
    node.kind = .branch condition merge → node.successors.length = 2 ∧
      ∃ join, graph.node? merge = some join ∧ join.kind = .merge
  straight : ∀ id node, graph.node? id = some node →
    (∀ condition merge, node.kind ≠ .branch condition merge) → node.successors.length ≤ 1
  acyclic : ∀ id ids, graph.Path id id ids → ids = [id]
  reached : ∃ head, graph.head = some head ∧ ∀ id node, graph.node? id = some node →
    ∃ ids, graph.Path head id ids
  ends : ∃ tail, ∀ id, graph.EndsAt id ↔ id = tail
  joins : ∀ id node, graph.node? id = some node → node.kind = .merge →
    graph.targets.count id = 2 ∧ ∃ fork, ∀ other, graph.ForksTo other id ↔ other = fork
  sides : ∀ fork merge thenHead elseHead, graph.ForksTo fork merge →
    graph.successors fork = [thenHead, elseHead] →
      (∀ id, graph.Before merge thenHead id → ¬ graph.Before merge elseHead id) ∧
      ∀ id tail ids, graph.Before merge thenHead id ∨ graph.Before merge elseHead id →
        graph.EndsAt tail → graph.Path id tail ids → merge ∈ ids

variable {graph : Graph}

theorem successors_of_node? {id : NodeId} {node : Node} (present : graph.node? id = some node) :
    graph.successors id = node.successors := by
  rw [successors, present]

theorem node?_of_mem_successors {id other : NodeId} (edge : other ∈ graph.successors id) :
    ∃ node, graph.node? id = some node := by
  unfold successors at edge
  cases present : graph.node? id with
  | none => simp [present] at edge
  | some node => exact ⟨node, rfl⟩

theorem Path.trans {id middle last : NodeId} {ids more : List NodeId}
    (first : graph.Path id middle ids) (second : graph.Path middle last more) :
    ∃ all, graph.Path id last all := by
  induction first with
  | here => exact ⟨_, second⟩
  | step edge _ ih =>
      obtain ⟨all, further⟩ := ih second
      exact ⟨_, .step edge further⟩

theorem Path.first_mem {id last : NodeId} {ids : List NodeId} (path : graph.Path id last ids) :
    id ∈ ids := by
  cases path <;> exact List.mem_cons_self

/-- Every edge from a listed node leads to one that is listed later, or out of the list. -/
def Forward (graph : Graph) (out : NodeId → Prop) : List NodeId → Prop
  | [] => True
  | id :: rest => (∀ next ∈ graph.successors id, next ∈ rest ∨ out next) ∧
      Forward graph out rest

namespace Forward

variable {out out' : NodeId → Prop} {ids rest : List NodeId}

theorem mono (forward : graph.Forward out ids) (weaker : ∀ id, out id → out' id) :
    graph.Forward out' ids := by
  induction ids with
  | nil => trivial
  | cons id rest ih =>
      exact ⟨fun next edge => (forward.1 next edge).imp_right (weaker next), ih forward.2⟩

theorem append (first : graph.Forward out ids) (second : graph.Forward out' rest)
    (leads : ∀ id, out id → id ∈ rest ∨ out' id) : graph.Forward out' (ids ++ rest) := by
  induction ids with
  | nil => exact second
  | cons id more ih =>
      refine ⟨fun next edge => ?_, ih first.2⟩
      rcases first.1 next edge with later | away
      · exact .inl (List.mem_append_left _ later)
      · exact (leads next away).imp_left (List.mem_append_right _)

theorem next {id other : NodeId} (forward : graph.Forward out ids) (member : id ∈ ids)
    (edge : other ∈ graph.successors id) : other ∈ ids ∨ out other := by
  induction ids with
  | nil => cases member
  | cons first rest ih =>
      rcases List.mem_cons.mp member with rfl | later
      · exact (forward.1 other edge).imp_left (List.mem_cons_of_mem _)
      · exact (ih forward.2 later).imp_left (List.mem_cons_of_mem _)

theorem last {id tail : NodeId} {way : List NodeId} (forward : graph.Forward out ids)
    (path : graph.Path id tail way) (member : id ∈ ids) :
    tail ∈ ids ∨ ∃ other ∈ way, out other := by
  induction path with
  | here => exact .inl member
  | step edge further ih =>
      rcases forward.next member edge with inside | away
      · exact (ih inside).imp_right fun ⟨other, there, away⟩ =>
          ⟨other, List.mem_cons_of_mem _ there, away⟩
      · exact .inr ⟨_, List.mem_cons_of_mem _ further.first_mem, away⟩

theorem acyclic {id : NodeId} {way : List NodeId} (forward : graph.Forward (fun _ => False) ids)
    (distinct : ids.Nodup) (member : id ∈ ids) (path : graph.Path id id way) : way = [id] := by
  induction ids with
  | nil => cases member
  | cons first rest ih =>
      obtain ⟨fresh, distinct⟩ := List.nodup_cons.mp distinct
      rcases List.mem_cons.mp member with rfl | later
      · cases path with
        | here => rfl
        | step edge further =>
            rcases forward.1 _ edge with inside | impossible
            · rcases forward.2.last further inside with back | ⟨_, _, impossible⟩
              · exact absurd back fresh
              · exact impossible.elim
            · exact impossible.elim
      · exact ih forward.2 distinct later

end Forward
end Resumable.Graph
