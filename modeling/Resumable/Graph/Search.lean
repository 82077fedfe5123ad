import Resumable.Graph.Basic

/-! Depth-first walks over a graph. They end because every step either takes an id off the stack or
adds a node to those seen. -/

namespace Resumable.Graph

def unseen (graph : Graph) (seen : List NodeId) : Nat :=
  ((List.range graph.size).filter fun id => !seen.contains id).length

theorem lt_size_of_node? {graph : Graph} {id : NodeId} {node : Node}
    (present : graph.node? id = some node) : id < graph.size := by
  by_cases inside : id < graph.size
  · exact inside
  · simp [node?, Array.getElem?_eq_none (Nat.le_of_not_lt inside)] at present

theorem unseen_append_lt {graph : Graph} {seen : List NodeId} {id : NodeId} {node : Node}
    (present : graph.node? id = some node) (fresh : id ∉ seen) :
    graph.unseen (seen ++ [id]) < graph.unseen seen := by
  have split : (fun i => !(seen ++ [id]).contains i) =
      fun i => (i != id) && (!seen.contains i) := by
    funext i
    by_cases same : i = id <;> simp [same]
  have member : id ∈ (List.range graph.size).filter fun i => !seen.contains i := by
    simp [lt_size_of_node? present, fresh]
  rw [unseen, unseen, split, ← List.filter_filter]
  exact List.length_filter_lt_length_iff_exists.mpr ⟨id, member, by simp⟩

/-- Nodes met from the stack, in discovery order. Ids that point nowhere are passed over. -/
def discover (graph : Graph) (seen : List NodeId) (stack : List NodeId) : List NodeId :=
  match stack with
  | [] => seen
  | id :: rest =>
    match _present : graph.node? id with
    | none => graph.discover seen rest
    | some node =>
      if _known : id ∈ seen then graph.discover seen rest
      else graph.discover (seen ++ [id]) (node.successors ++ rest)
termination_by (graph.unseen seen, stack.length)
decreasing_by
  · right; simp
  · right; simp
  · left; exact unseen_append_lt _present _known

/-- Every node that can be reached from the head, continuations of suspensions included. -/
def reachable (graph : Graph) : List NodeId :=
  match graph.head with
  | none => []
  | some head => graph.discover [] [head]

/-- Nodes met from the stack where each node names the ids to go on with. An id that points nowhere
and a node that names none ends the walk. -/
def explore (graph : Graph) (next : NodeId → Node → Except Failure (List NodeId))
    (seen : List NodeId) (stack : List NodeId) : Except Failure (List NodeId) :=
  match stack with
  | [] => .ok seen
  | id :: rest =>
    if _known : id ∈ seen then graph.explore next seen rest
    else
      match _present : graph.node? id with
      | none => .error { fault := .graph (.noNode id) }
      | some node =>
        match next id node with
        | .error failure => .error failure
        | .ok ids => graph.explore next (seen ++ [id]) (ids ++ rest)
termination_by (graph.unseen seen, stack.length)
decreasing_by
  · right; simp
  · left; exact unseen_append_lt _present _known

def members (graph : Graph) (ids : List NodeId) : List (NodeId × Node) :=
  ids.filterMap fun id => (graph.node? id).map (id, ·)

theorem mem_members {graph : Graph} {ids : List NodeId} {id : NodeId} {node : Node} :
    (id, node) ∈ graph.members ids ↔ id ∈ ids ∧ graph.node? id = some node := by
  simp only [members, List.mem_filterMap, Option.map_eq_some_iff, Prod.mk.injEq]
  constructor
  · rintro ⟨other, listed, found, present, rfl, rfl⟩
    exact ⟨listed, present⟩
  · rintro ⟨listed, present⟩
    exact ⟨id, listed, node, present, rfl, rfl⟩

/-- The nodes that run in one resume from a start, without the edges that suspensions have. The
branches of a node are walked from the last to the first. -/
def extract (graph : Graph) (start : NodeId) : Except Failure (List (NodeId × Node)) := do
  let ids ← graph.explore (fun _ node => .ok node.onward.reverse) [] [start]
  return (graph.members ids).map fun (id, node) => (id, { node with successors := node.onward })

end Resumable.Graph
