import Resumable.Graph.Search
import Resumable.Region.Basic

/-! Splitting a graph into regions. Region 0 starts at the head, and each continuation of a
suspension starts one more unless a region starts there already. -/

namespace Resumable.Region

/-- A region ends at its suspensions, which continue in one place at most. -/
def onward (id : NodeId) (node : Node) : Except Failure (List NodeId) :=
  if node.isSuspension then
    match node.successors with
    | _ :: _ :: _ => .error { fault := .graph (.manyContinuations id node.fragment) }
    | _ => .ok []
  else .ok node.successors

/-- The starts that are known, each with the number of its region, and those of them that wait to be
walked. -/
structure Frontier where
  numbers : List (NodeId × RegionId)
  pending : List NodeId

namespace Frontier

/-- The number of the region that starts at a node. A new one comes behind those that were walked,
the one that is being walked and those that wait. -/
def number (frontier : Frontier) (walked : Nat) (start : NodeId) : RegionId × Frontier :=
  match frontier.numbers.lookup start with
  | some id => (id, frontier)
  | none =>
    let id := walked + 1 + frontier.pending.length
    (id, { numbers := frontier.numbers ++ [(start, id)], pending := frontier.pending ++ [start] })

def exits (frontier : Frontier) (walked : Nat) :
    List (NodeId × Node) → List (NodeId × Target) × Frontier
  | [] => ([], frontier)
  | (id, node) :: rest =>
    if node.isSuspension then
      match node.successors with
      | [] =>
        let others := frontier.exits walked rest
        ((id, .complete) :: others.1, others.2)
      | continuation :: _ =>
        let region := frontier.number walked continuation
        let others := region.2.exits walked rest
        ((id, .region region.1) :: others.1, others.2)
    else frontier.exits walked rest

/-- The walks that are still to come: one for each start that waits, and one at most for each edge
to a node that is no start yet. -/
def ahead (graph : Graph) (frontier : Frontier) : Nat :=
  (graph.targets.filter fun id => (frontier.numbers.lookup id).isNone).length +
    frontier.pending.length

theorem ahead_number {graph : Graph} {start : NodeId} (target : start ∈ graph.targets)
    (frontier : Frontier) (walked : Nat) :
    (frontier.number walked start).2.ahead graph ≤ frontier.ahead graph := by
  unfold number
  split
  · exact Nat.le_refl _
  · rename_i unknown
    have split : (fun id => ((frontier.numbers ++
          [(start, walked + 1 + frontier.pending.length)]).lookup id).isNone) =
        fun id => (id != start) && (frontier.numbers.lookup id).isNone := by
      funext id
      by_cases same : id = start
      · simp [same, List.lookup_append]
      · have apart : (id == start) = false := by simpa using same
        simp [same, apart, List.lookup_append, List.lookup_cons]
    have fewer : ((graph.targets.filter fun id => (frontier.numbers.lookup id).isNone).filter
        (· != start)).length <
          (graph.targets.filter fun id => (frontier.numbers.lookup id).isNone).length := by
      refine List.length_filter_lt_length_iff_exists.mpr ⟨start, ?_, by simp⟩
      simp [target, unknown]
    simp only [ahead, split, ← List.filter_filter, List.length_append, List.length_singleton]
    omega

theorem ahead_exits {graph : Graph} {members : List (NodeId × Node)}
    (inside : ∀ member ∈ members, ∀ next ∈ member.2.successors, next ∈ graph.targets)
    (frontier : Frontier) (walked : Nat) :
    (frontier.exits walked members).2.ahead graph ≤ frontier.ahead graph := by
  induction members generalizing frontier with
  | nil => exact Nat.le_refl _
  | cons member rest ih =>
    have further := ih fun other listed => inside other (List.mem_cons_of_mem _ listed)
    rw [exits]
    split
    · split
      · exact further frontier
      · rename_i continuation _ successors
        have target : continuation ∈ graph.targets :=
          inside _ List.mem_cons_self _ (by simp [successors])
        exact Nat.le_trans (further _) (ahead_number target frontier walked)
    · exact further frontier

end Frontier

/-- A region of the given members, before its liveness is known. -/
def ofMembers (id : RegionId) (start : NodeId) (exits : List (NodeId × Target))
    (members : List (NodeId × Node)) : Region :=
  { id, start
    nodes := members.map Prod.fst
    referenced := .ofList (members.flatMap (·.2.reads))
    declared := .ofList (members.filterMap (·.2.declares))
    exits
    continuations := (exits.filterMap (·.2.region?)).eraseDups }

def discoverFrom (graph : Graph) (done : List Region) (frontier : Frontier) :
    Except Failure (List Region × List (NodeId × RegionId)) :=
  match _waiting : frontier.pending with
  | [] => .ok (done, frontier.numbers)
  | start :: rest =>
    match graph.explore onward [] [start] with
    | .error failure => .error failure
    | .ok ids =>
      let members := graph.members ids
      let found := Frontier.exits ⟨frontier.numbers, rest⟩ done.length members
      discoverFrom graph (done ++ [ofMembers done.length start found.1 members]) found.2
termination_by frontier.ahead graph
decreasing_by
  have inside : ∀ member ∈ graph.members ids, ∀ next ∈ member.2.successors,
      next ∈ graph.targets := by
    intro member listed next edge
    have present := (Graph.mem_members.mp listed).2
    refine List.mem_flatMap.mpr
      ⟨member.1, List.mem_range.mpr (Graph.lt_size_of_node? present), ?_⟩
    rwa [Graph.successors, present]
  refine Nat.lt_of_le_of_lt (Frontier.ahead_exits inside _ _) ?_
  simp [Frontier.ahead, _waiting]

def discover (graph : Graph) (head : NodeId) :
    Except Failure (List Region × List (NodeId × RegionId)) :=
  discoverFrom graph [] ⟨[(head, 0)], [head]⟩

end Resumable.Region
