import Resumable.Proofs.Region.Coherence

/-! Three walks over a graph and what they find: the nodes of a region, a region taken out of the
graph, and everything that the head leads to. They differ in how they treat the edges of suspensions
and ids that point nowhere, and agree on what a region is. -/

namespace Resumable

namespace Graph

variable {graph : Graph} {start id : NodeId} {found seen stack : List NodeId} {failure : Failure}

/-- What runs in one resume from a start: whatever is come to without going on behind a suspension.
-/
inductive Runs (graph : Graph) (start : NodeId) : NodeId → Prop where
  | here : Runs graph start start
  | step {id next : NodeId} {node : Node} : Runs graph start id → graph.node? id = some node →
    next ∈ node.onward → Runs graph start next

section Explore

variable {next : NodeId → Node → Except Failure (List NodeId)}
  (names : ∀ id node ids, next id node = .ok ids → ∀ x, x ∈ ids ↔ x ∈ node.onward)

include names

theorem mem_explore_iff (done : graph.explore next [] [start] = .ok found) :
    id ∈ found ↔ graph.Runs start id := by
  constructor
  · refine explore_subset (P := graph.Runs start) ?_ ?_ ?_ done id
    · intro other node ids runs present goes x further
      exact .step runs present ((names other node ids goes x).mp further)
    · intro other impossible
      cases impossible
    · intro other member
      rw [List.mem_singleton.mp member]
      exact .here
  · intro runs
    induction runs with
    | here => exact (subset_explore done).2 List.mem_cons_self
    | step _ present further known =>
        obtain ⟨node, ids, present', goes⟩ := walk_visits done _ known
        obtain rfl := Option.some.inj (present.symm.trans present')
        exact walk_stays done _ _ ids known present goes _ ((names _ _ ids goes _).mpr further)

end Explore

theorem explore_error {P : NodeId → Prop} {names : Node → List NodeId}
    (stays : graph.Stays (fun _ node => .ok (names node)) P) (first : ∀ id ∈ stack, P id)
    (failed : graph.explore (fun _ node => .ok (names node)) seen stack = .error failure) :
    ∃ id, P id ∧ graph.node? id = none ∧ failure = { fault := .graph (.noNode id) } := by
  fun_induction explore graph (fun _ node => .ok (names node)) seen stack with
  | case1 => cases failed
  | case2 seen id rest known ih =>
      exact ih (fun x member => first x (List.mem_cons_of_mem _ member)) failed
  | case3 seen id rest fresh absent =>
      cases failed
      exact ⟨id, first id List.mem_cons_self, absent, rfl⟩
  | case4 seen id rest fresh node present failure' impossible => cases impossible
  | case5 seen id rest fresh node present ids goes ih =>
      refine ih (fun x member => ?_) failed
      rcases List.mem_append.mp member with new | later
      · exact stays id node ids (first id List.mem_cons_self) present goes x new
      · exact first x (List.mem_cons_of_mem _ later)

section Extract

variable {entries : List (NodeId × Node)}

theorem extract_ok (done : graph.extract start = .ok entries) :
    ∃ found, graph.explore (fun _ node => .ok node.onward.reverse) [] [start] = .ok found ∧
      entries = (graph.members found).map
        fun (id, node) => (id, { node with successors := node.onward }) := by
  obtain ⟨found, walked, made⟩ := ok_bind done
  cases made
  exact ⟨found, walked, rfl⟩

theorem mem_reverse_onward (_id : NodeId) (node : Node) (ids : List NodeId)
    (goes : (.ok node.onward.reverse : Except Failure (List NodeId)) = .ok ids) (x : NodeId) :
    x ∈ ids ↔ x ∈ node.onward := by
  cases goes
  exact List.mem_reverse

theorem mem_extract (done : graph.extract start = .ok entries) {copy : Node} :
    (id, copy) ∈ entries ↔ graph.Runs start id ∧
      ∃ node, graph.node? id = some node ∧ copy = { node with successors := node.onward } := by
  obtain ⟨found, walked, rfl⟩ := extract_ok done
  rw [← mem_explore_iff mem_reverse_onward walked, List.mem_map]
  constructor
  · rintro ⟨⟨_, node⟩, listed, same⟩
    obtain ⟨rfl, rfl⟩ := Prod.mk.inj same
    obtain ⟨inside, present⟩ := mem_members.mp listed
    exact ⟨inside, node, present, rfl⟩
  · rintro ⟨inside, node, present, rfl⟩
    exact ⟨(id, node), mem_members.mpr ⟨inside, present⟩, rfl⟩

theorem extract_keys (done : graph.extract start = .ok entries) :
    (entries.map Prod.fst).Nodup ∧ ∀ id, id ∈ entries.map Prod.fst ↔ graph.Runs start id := by
  obtain ⟨found, walked, made⟩ := extract_ok done
  have keys : entries.map Prod.fst = found := by
    calc
      entries.map Prod.fst = (graph.members found).map Prod.fst := by
        simp [made, Function.comp_def]
      _ = found := members_keys walked
  rw [keys]
  exact ⟨explore_nodup List.nodup_nil walked, fun _ => mem_explore_iff mem_reverse_onward walked⟩

/-- A region can be taken out of a graph unless an id that points nowhere would run in it. -/
theorem extract_error_iff (start : NodeId) :
    (∃ failure, graph.extract start = .error failure) ↔
      ∃ id, graph.Runs start id ∧ graph.node? id = none := by
  constructor
  · rintro ⟨failure, failed⟩
    have walk : graph.explore (fun _ node => .ok node.onward.reverse) [] [start] =
        .error failure := by
      rcases failed_bind failed with first | ⟨_, _, impossible⟩
      · exact first
      · cases impossible
    have stays : graph.Stays (fun _ node => .ok node.onward.reverse) (graph.Runs start) := by
      intro id node ids runs present goes x further
      exact .step runs present ((mem_reverse_onward id node ids goes x).mp further)
    have first : ∀ id ∈ [start], graph.Runs start id := by
      intro id member
      rw [List.mem_singleton.mp member]
      exact .here
    obtain ⟨id, runs, absent, _⟩ := explore_error stays first walk
    exact ⟨id, runs, absent⟩
  · rintro ⟨id, runs, absent⟩
    cases done : graph.extract start with
    | error failure => exact ⟨failure, rfl⟩
    | ok entries =>
        obtain ⟨found, walked, _⟩ := extract_ok done
        have inside := (mem_explore_iff mem_reverse_onward walked).mpr runs
        obtain ⟨node, _, present, _⟩ := walk_visits walked id inside
        cases absent.symm.trans present

/-- A part of a graph, as what runs from its start is taken out. It has each node once. Suspensions
have lost their edges, the other nodes have kept theirs, and no edge leads out of the part. -/
structure Part (graph : Graph) (start : NodeId) (entries : List (NodeId × Node)) : Prop where
  once : (entries.map Prod.fst).Nodup
  keys : ∀ id, id ∈ entries.map Prod.fst ↔ graph.Runs start id
  copied : ∀ id copy, (id, copy) ∈ entries →
    ∃ node, graph.node? id = some node ∧ copy = { node with successors := copy.successors }
  cut : ∀ id copy, (id, copy) ∈ entries → copy.isSuspension = true → copy.successors = []
  kept : ∀ id copy, (id, copy) ∈ entries → copy.isSuspension = false →
    copy.successors = graph.successors id ∧ ∀ next ∈ copy.successors, next ∈ entries.map Prod.fst

theorem extract_part (done : graph.extract start = .ok entries) : graph.Part start entries := by
  obtain ⟨once, keys⟩ := extract_keys done
  refine ⟨once, keys, ?_, ?_, ?_⟩
  · intro id copy listed
    obtain ⟨_, node, present, rfl⟩ := (mem_extract done).mp listed
    exact ⟨node, present, rfl⟩
  · intro id copy listed suspends
    obtain ⟨_, node, _, rfl⟩ := (mem_extract done).mp listed
    exact if_pos suspends
  · intro id copy listed calm
    obtain ⟨runs, node, present, rfl⟩ := (mem_extract done).mp listed
    have goes : node.isSuspension = false := calm
    have all : node.onward = node.successors := by
      rw [Node.onward, goes]
      rfl
    constructor
    · rw [successors, present]
      exact all
    · intro next further
      exact (keys next).mpr (.step runs present further)

end Extract

section Reachable

theorem reachable_subset {P : NodeId → Prop} {head : NodeId} (start : graph.head = some head)
    (first : P head) (closed : ∀ id node next further, P id → graph.node? id = some node →
      next ∈ node.successors → graph.node? next = some further → P next) :
    ∀ id ∈ graph.reachable, P id := by
  have walk := graph.explore_discover [] [head]
  rw [reachable, start]
  refine explore_subset ?_ ?_ ?_ walk
  · intro id node ids holds present goes x further
    cases goes
    obtain ⟨edge, there⟩ := List.mem_filter.mp further
    obtain ⟨node', found⟩ := Option.isSome_iff_exists.mp there
    exact closed id node x node' holds present edge found
  · intro id impossible
    cases impossible
  · intro id member
    rw [List.mem_singleton.mp (List.mem_of_mem_filter member)]
    exact first

theorem reachable_closed {head : NodeId} (start : graph.head = some head) :
    (∀ node, graph.node? head = some node → head ∈ graph.reachable) ∧
      ∀ id node next further, id ∈ graph.reachable → graph.node? id = some node →
        next ∈ node.successors → graph.node? next = some further → next ∈ graph.reachable := by
  have walk := graph.explore_discover [] [head]
  rw [reachable, start]
  constructor
  · intro node present
    refine (subset_explore walk).2 (List.mem_filter.mpr ⟨List.mem_cons_self, ?_⟩)
    rw [present]
    rfl
  · intro id node next further known present edge found
    refine walk_stays walk id node _ known present rfl next (List.mem_filter.mpr ⟨edge, ?_⟩)
    rw [found]
    rfl

end Reachable
end Graph

namespace Region

variable {graph : Graph} {head : NodeId} {starts found : List NodeId} {regions : List Region}
  {region : Region}

theorem mem_onward (id : NodeId) (node : Node) (ids : List NodeId)
    (goes : onward id node = .ok ids) (x : NodeId) : x ∈ ids ↔ x ∈ node.onward := by
  unfold onward at goes
  unfold Node.onward
  split at goes
  · rename_i suspends
    rw [if_pos suspends]
    split at goes
    · cases goes
    · cases goes
      exact Iff.rfl
  · rename_i calm
    rw [if_neg calm]
    cases goes
    exact Iff.rfl

/-- The nodes of a region are what runs from its start, each once, and all of them exist. -/
theorem Walked.nodes_run (walked : Walked graph starts region found) :
    region.nodes.Nodup ∧ (∀ id, id ∈ region.nodes ↔ graph.Runs region.start id) ∧
      ∀ id ∈ region.nodes, ∃ node, graph.node? id = some node := by
  rw [walked.nodes_eq]
  refine ⟨Graph.explore_nodup List.nodup_nil walked.walked, fun id => ?_, fun id inside => ?_⟩
  · exact Graph.mem_explore_iff mem_onward walked.walked
  · obtain ⟨node, _, present, _⟩ := Graph.walk_visits walked.walked id inside
    exact ⟨node, present⟩

theorem Walked.nodes_reached (walked : Walked graph starts region found)
    (start : graph.head = some head) (reached : region.start ∈ graph.reachable) :
    ∀ id ∈ region.nodes, id ∈ graph.reachable := by
  obtain ⟨_, nodes, exist⟩ := walked.nodes_run
  intro id inside
  induction (nodes id).mp inside with
  | here => exact reached
  | @step id next node runs present further ih =>
      obtain ⟨node', found'⟩ := exist next inside
      have edge : next ∈ node.successors := by
        unfold Node.onward at further
        split at further
        · cases further
        · exact further
      have before := ih ((nodes id).mpr runs)
      exact (Graph.reachable_closed start).2 id node next node' before present edge found'

namespace Made

section All

variable (made : Made graph head regions starts) (all : regions.length = starts.length)

include made all

theorem start_inside {e : NodeId} (known : e ∈ starts) :
    ∃ region ∈ regions, e ∈ region.nodes ∧ ∃ node, graph.node? e = some node := by
  obtain ⟨region, present, rfl⟩ := made.of_start all known
  obtain ⟨_, _, found, walked⟩ := made.region _ region present
  obtain ⟨_, nodes, exist⟩ := walked.nodes_run
  have inside := (nodes _).mpr .here
  exact ⟨region, List.mem_of_getElem? present, inside, exist _ inside⟩

theorem starts_reached (start : graph.head = some head) : ∀ e ∈ starts, e ∈ graph.reachable := by
  obtain ⟨first, closed⟩ := Graph.reachable_closed start
  apply made.all_starts (P := (· ∈ graph.reachable))
  · have known : head ∈ starts := List.mem_of_mem_head? (made.first ▸ rfl)
    obtain ⟨_, _, _, node, present⟩ := made.start_inside all known
    exact first node present
  · intro region member reached found walked next continues
    obtain ⟨_, _, _, node', present'⟩ := made.start_inside all (walked.known next continues)
    obtain ⟨⟨id, node⟩, listed, _, further⟩ := continues
    have inside : id ∈ region.nodes := by
      rw [walked.nodes_eq]
      exact (Graph.mem_members.mp listed).1
    have before := walked.nodes_reached start reached id inside
    have present := (Graph.mem_members.mp listed).2
    exact closed id node next node' before present (List.mem_of_mem_head? further) present'

/-- Every edge from a node of a region leads to a node of some region. What a region does not go on
to, because a suspension is in between, is the start of another one. -/
theorem nodes_closed (member : region ∈ regions) {id next : NodeId} {node : Node}
    (inside : id ∈ region.nodes) (present : graph.node? id = some node)
    (edge : next ∈ node.successors) : ∃ region ∈ regions, next ∈ region.nodes := by
  obtain ⟨found, walked⟩ := made.walked_of_mem member
  by_cases suspends : node.isSuspension = true
  · -- The walk has let the suspension through, so that it has no edge but this one.
    have listed : (id, node) ∈ graph.members found := by
      refine Graph.mem_members.mpr ⟨?_, present⟩
      rwa [walked.nodes_eq] at inside
    have only : node.successors = [next] := by
      rcases walked.successors listed suspends with last | ⟨other, successors⟩
      · rw [last] at edge
        cases edge
      · rw [successors] at edge
        rw [successors, List.mem_singleton.mp edge]
    have known := walked.known next ⟨_, listed, suspends, by rw [only]; rfl⟩
    obtain ⟨region', member', inside', _⟩ := made.start_inside all known
    exact ⟨region', member', inside'⟩
  · have stays : next ∈ node.onward := by
      rwa [Node.onward, if_neg suspends]
    obtain ⟨_, nodes, _⟩ := walked.nodes_run
    exact ⟨region, member, (nodes next).mpr (.step ((nodes id).mp inside) present stays)⟩

/-- The regions together have every node that the head leads to, and no others. -/
theorem mem_reachable_iff (start : graph.head = some head) {id : NodeId} :
    (∃ region ∈ regions, id ∈ region.nodes) ↔ id ∈ graph.reachable := by
  constructor
  · rintro ⟨region, member, inside⟩
    obtain ⟨place, present⟩ := List.getElem?_of_mem member
    obtain ⟨_, here, found, walked⟩ := made.region place region present
    have reached := made.starts_reached all start region.start (List.mem_of_getElem? here)
    exact walked.nodes_reached start reached id inside
  · apply Graph.reachable_subset (P := fun id => ∃ region ∈ regions, id ∈ region.nodes) start
    · have known : head ∈ starts := List.mem_of_mem_head? (made.first ▸ rfl)
      obtain ⟨region, member, inside, _⟩ := made.start_inside all known
      exact ⟨region, member, inside⟩
    · rintro id node next further ⟨region, member, inside⟩ present edge _
      exact made.nodes_closed all member inside present edge

end All

end Made
end Region

section Analysis

variable {body : Body} {settings : Settings} {analysis : Analysis} {region : Region}

theorem Body.analyze_extract (analysed : body.analyze settings = .ok analysis)
    (member : region ∈ analysis.regions) : region.nodes.Nodup ∧ ∃ entries,
      body.graph.extract region.start = .ok entries ∧
      ∀ id, id ∈ region.nodes ↔ id ∈ entries.map Prod.fst := by
  obtain ⟨_, _, _, _, made⟩ := Body.analyze_made analysed
  obtain ⟨found, walked⟩ := made.walked_of_mem member
  obtain ⟨once, nodes, exist⟩ := walked.nodes_run
  refine ⟨once, ?_⟩
  cases done : body.graph.extract region.start with
  | ok entries =>
      refine ⟨entries, rfl, fun id => ?_⟩
      rw [nodes, (Graph.extract_part done).keys]
  | error failure =>
      obtain ⟨id, runs, absent⟩ := (Graph.extract_error_iff _).mp ⟨failure, done⟩
      obtain ⟨node, present⟩ := exist id ((nodes id).mpr runs)
      cases absent.symm.trans present

/-- Three walks agree on every graph. A region can be taken out unless an id that points nowhere
would run in it, and whole regions are taken out. The regions of an analysis have the nodes that are
taken out at their starts, and together those that can be reached from the head. -/
theorem Body.walks_agree (body : Body) (settings : Settings) :
    (∀ start, (∃ failure, body.graph.extract start = .error failure) ↔
      ∃ id, body.graph.Runs start id ∧ body.graph.node? id = none) ∧
    (∀ start entries, body.graph.extract start = .ok entries → body.graph.Part start entries) ∧
    ∀ analysis, body.analyze settings = .ok analysis →
      (∀ region ∈ analysis.regions, region.nodes.Nodup ∧ ∃ entries,
        body.graph.extract region.start = .ok entries ∧
        ∀ id, id ∈ region.nodes ↔ id ∈ entries.map Prod.fst) ∧
      ∀ id, (∃ region ∈ analysis.regions, id ∈ region.nodes) ↔ id ∈ body.graph.reachable := by
  refine ⟨Graph.extract_error_iff, fun start entries done => Graph.extract_part done, ?_⟩
  intro analysis analysed
  obtain ⟨head, start, _, all, made⟩ := Body.analyze_made analysed
  constructor
  · intro region member
    exact Body.analyze_extract analysed member
  · intro id
    exact made.mem_reachable_iff all start

theorem Body.walks_agree_knot : (∃ failure, Body.knot.graph.extract 8 = .error failure) ∧
    ∃ entries analysis, Body.knot.graph.extract 3 = .ok entries ∧
      entries.map Prod.fst = [3, 4, 5] ∧ Body.knot.graph.Part 3 entries ∧
      Body.knot.analyze {} = .ok analysis ∧
      analysis.regions.map Region.nodes = [[0, 1, 3, 4, 5], [6, 7], [3, 4, 5]] ∧
      ∀ id, (∃ region ∈ analysis.regions, id ∈ region.nodes) ↔ id ∈ Body.knot.graph.reachable := by
  obtain ⟨fails, parts, agrees⟩ := Body.walks_agree Body.knot {}
  have seen : (do
      let entries ← Body.knot.graph.extract 3
      let analysis ← Body.knot.analyze {}
      return (entries.map Prod.fst, analysis.regions.map Region.nodes)) =
        .ok ([3, 4, 5], [[0, 1, 3, 4, 5], [6, 7], [3, 4, 5]]) := by cbv
  obtain ⟨entries, done, seen⟩ := ok_bind seen
  obtain ⟨analysis, analysed, seen⟩ := ok_bind seen
  obtain ⟨keys, nodes⟩ := Prod.mk.inj (Except.ok.inj seen)
  refine ⟨(fails 8).mpr ⟨8, .here, rfl⟩, entries, analysis, done, keys, parts 3 entries done,
    analysed, nodes, (agrees analysis analysed).2⟩

end Analysis
end Resumable
