import Mathlib
import Resumable.Proofs.Lowered
import Resumable.Proofs.Lowering.Changes
import Resumable.Proofs.Route.Shape

/-! Every graph that lowering makes is well-formed: its nodes are those of one route, and the shape
of a route is the shape of its graph. -/

namespace Resumable

variable {body : Body} {function : Function} {infos : List Variable} {s' : Stmt} {route : Route}

namespace Body.Built

theorem ids_perm (built : body.Built function infos s' route) :
    route.ids.Perm (List.range body.graph.size) := by
  refine (built.distinct.subperm fun id member =>
    List.mem_range.mpr (built.inside id member)).perm_of_length_le ?_
  rw [List.length_range, built.count]

theorem mem_ids (built : body.Built function infos s' route) {id : NodeId} {node : Node}
    (present : body.graph.node? id = some node) : id ∈ route.ids :=
  built.ids_perm.mem_iff.mpr (List.mem_range.mpr (Graph.lt_size_of_node? present))

theorem node (built : body.Built function infos s' route) {id : NodeId} (member : id ∈ route.ids) :
    ∃ node, body.graph.node? id = some node :=
  (built.laid.node member).imp fun _ found => found.1

theorem pairs (built : body.Built function infos s' route) : route.Paired false :=
  Stmt.Flows.paired s' built.flows

theorem forward (built : body.Built function infos s' route) :
    body.graph.Forward (fun _ => False) route.ids :=
  built.laid.forward.mono fun _ impossible => by cases impossible

theorem endsAt_iff (built : body.Built function infos s' route) (id : NodeId) :
    body.graph.EndsAt id ↔ route.last? = some id := by
  constructor
  · rintro ⟨node, present, end_⟩
    exact (built.laid.ends (built.mem_ids present)
      ((Graph.successors_of_node? present).trans end_)).2
  · intro last
    obtain ⟨node, present⟩ := built.node (Route.mem_ids_of_last? last)
    exact ⟨node, present,
      (Graph.successors_of_node? present).symm.trans (built.laid.last_ends last)⟩

theorem count_targets (built : body.Built function infos s' route) {merge : NodeId}
    (joins : merge ∈ route.merges) : body.graph.targets.count merge = 2 := by
  have counted := built.laid.count_successors built.pairs merge
  have all : body.graph.targets.count merge =
      (route.ids.flatMap body.graph.successors).count merge :=
    (built.ids_perm.flatMap_right _).symm.count_eq merge
  have entry : (route.first?.or none).toList.count merge = 0 := by
    rw [List.count_eq_zero, Option.or_none, Option.mem_toList]
    intro first
    exact built.pairs.first?_notMem built.distinct first joins
  have once : route.ids.count merge = 1 :=
    List.count_eq_one_of_mem built.distinct (route.merges_sublist.subset joins)
  have once' : route.merges.count merge = 1 :=
    List.count_eq_one_of_mem (built.distinct.sublist route.merges_sublist) joins
  simp only [Bool.false_eq_true, if_false, Option.toList_none, List.count_nil] at counted
  omega

theorem forksTo_iff (built : body.Built function infos s' route) {merge : NodeId}
    (joins : merge ∈ route.merges) :
    ∃ fork, ∀ other, body.graph.ForksTo other merge ↔ other = fork := by
  have named : ∀ id, (route.ids.filterMap body.graph.merge?).count id = route.merges.count id :=
    fun id => by simpa using built.laid.count_merge? built.pairs id
  have distinct : (route.ids.filterMap body.graph.merge?).Nodup := by
    refine List.nodup_iff_count_le_one.mpr fun id => ?_
    rw [named]
    exact List.nodup_iff_count_le_one.mp (built.distinct.sublist route.merges_sublist) id
  have member : merge ∈ route.ids.filterMap body.graph.merge? := by
    rw [← List.count_pos_iff, named, List.count_pos_iff]
    exact joins
  obtain ⟨fork, inside, names⟩ := List.mem_filterMap.mp member
  refine ⟨fork, fun other => ?_⟩
  constructor
  · intro forks
    have names' := Graph.forksTo_iff.mp forks
    obtain ⟨node, _, present, _⟩ := forks
    by_contra apart
    let both (a b : NodeId) : Prop :=
      body.graph.merge? a = some merge ∧ body.graph.merge? b = some merge
    have pairs : route.ids.Pairwise fun a b => ¬ both a b :=
      (List.pairwise_filterMap.mp distinct).imp fun differ same =>
        differ merge same.1 merge same.2 rfl
    have symm : Std.Symm fun a b => ¬ both a b := ⟨fun _ _ differ same => differ same.symm⟩
    exact pairs.forall (built.mem_ids present) inside apart ⟨names', names⟩
  · rintro rfl
    exact Graph.forksTo_iff.mpr names

theorem sides (built : body.Built function infos s' route) {fork merge thenHead elseHead : NodeId}
    (forks : body.graph.ForksTo fork merge)
    (heads : body.graph.successors fork = [thenHead, elseHead]) :
    (∀ id, body.graph.Before merge thenHead id → ¬ body.graph.Before merge elseHead id) ∧
      ∀ id tail ids, body.graph.Before merge thenHead id ∨ body.graph.Before merge elseHead id →
        body.graph.EndsAt tail → body.graph.Path id tail ids → merge ∈ ids := by
  obtain ⟨node, condition, present, kind⟩ := forks
  obtain ⟨thenRoute, elseRoute, sides⟩ :=
    built.laid.sides built.pairs (built.mem_ids present) present kind
  obtain ⟨thenHead', elseHead', same, starts, starts'⟩ := sides.heads
  rw [Graph.successors_of_node? present, same] at heads
  cases heads
  -- a way that does not come to the merge stays on the side where it starts
  have stays : ∀ {side : Route} {start id : NodeId} {ids : List NodeId},
      Route.Laid body.graph (some merge) side → start ∈ side.ids → body.graph.Path start id ids →
      merge ∉ ids → id ∈ side.ids := by
    intro side start id ids laid inside path avoids
    rcases laid.forward.last path inside with here | ⟨other, there, meets⟩
    · exact here
    · cases meets
      exact absurd there avoids
  have inThen : ∀ {id}, body.graph.Before merge thenHead id → id ∈ thenRoute.ids :=
    fun ⟨_, path, avoids⟩ => stays sides.inThen (Route.mem_ids_of_first? starts) path avoids
  have inElse : ∀ {id}, body.graph.Before merge elseHead id → id ∈ elseRoute.ids :=
    fun ⟨_, path, avoids⟩ => stays sides.inElse (Route.mem_ids_of_first? starts') path avoids
  have leaves : ∀ {side : Route} {id tail : NodeId} {ids : List NodeId},
      Route.Laid body.graph (some merge) side → id ∈ side.ids → body.graph.EndsAt tail →
      body.graph.Path id tail ids → merge ∈ ids := by
    intro side id tail ids laid inside end_ path
    by_contra avoids
    obtain ⟨last, there, nothing⟩ := end_
    cases (laid.ends (stays laid inside path avoids)
      ((Graph.successors_of_node? there).trans nothing)).1
  refine ⟨fun id first second => ?_, fun id tail ids either end_ path => ?_⟩
  · have apart := built.distinct.sublist sides.apart
    exact (List.nodup_append.mp apart).2.2 id (inThen first) id (inElse second) rfl
  · rcases either with first | second
    · exact leaves sides.inThen (inThen first) end_ path
    · exact leaves sides.inElse (inElse second) end_ path

end Body.Built

/-- Every graph that is built has the shape of structured code. -/
theorem Body.build_wellFormed {settings : Settings} {arity : Nat} {e : Expr} {body : Body}
    (done : Body.build settings arity e = .ok body) : body.graph.WellFormed := by
  obtain ⟨function, infos, s', route, _, built⟩ := Body.build_ok done
  obtain ⟨head, starts⟩ : ∃ head, route.first? = some head :=
    Option.ne_none_iff_exists'.mp (Route.first?_eq_none.not.mpr built.some_)
  have merges : ∀ {id node}, body.graph.node? id = some node →
      (node.kind = .merge ↔ id ∈ route.merges) :=
    fun present => built.laid.kind_eq_merge (built.mem_ids present) present
  refine ⟨?_, ?_, ?_, ?_, ?_, ?_, ?_, ?_, ?_, ?_⟩
  · intro position node present
    obtain ⟨node', present', same, _⟩ := built.laid.node (built.mem_ids present)
    cases present.symm.trans present'
    exact same
  · intro position later node node' before present present'
    rw [Body.build_uid done present, Body.build_uid done present']
    exact before
  · intro id node present next edge
    rw [← Graph.successors_of_node? present] at edge
    rcases built.forward.next (built.mem_ids present) edge with inside | impossible
    · exact built.node inside
    · exact impossible.elim
  · intro id node condition merge present kind
    obtain ⟨thenRoute, elseRoute, sides⟩ :=
      built.laid.sides built.pairs (built.mem_ids present) present kind
    obtain ⟨_, _, same, _, _⟩ := sides.heads
    obtain ⟨join, there⟩ := built.node (route.merges_sublist.subset sides.joins)
    exact ⟨by rw [same]; rfl, join, there, (merges there).mpr sides.joins⟩
  · intro id node present notBranch
    obtain ⟨node', present', _, short | ⟨condition, merge, kind⟩⟩ :=
      built.laid.node (built.mem_ids present)
    · cases present.symm.trans present'
      exact short
    · cases present.symm.trans present'
      exact absurd kind (notBranch condition merge)
  · intro id ids path
    cases path with
    | here => rfl
    | step edge further =>
        obtain ⟨node, present⟩ := Graph.node?_of_mem_successors edge
        exact built.forward.acyclic built.distinct (built.mem_ids present) (.step edge further)
  · refine ⟨head, built.head.trans starts, fun id node present => ?_⟩
    have stays : ∀ id, (∃ ids, body.graph.Path head id ids) →
        ∀ other ∈ body.graph.successors id, ∃ ids, body.graph.Path head other ids :=
      fun id ⟨_, path⟩ other edge => path.trans (.step edge (.here other))
    refine (built.laid.reached stays fun first follows => ?_).1 id (built.mem_ids present)
    rw [starts, Option.some_or] at follows
    cases follows
    exact ⟨_, .here _⟩
  · obtain ⟨tail, last⟩ : ∃ tail, route.last? = some tail :=
      Option.ne_none_iff_exists'.mp (Route.last?_eq_none.not.mpr built.some_)
    refine ⟨tail, fun id => ?_⟩
    rw [built.endsAt_iff, last, Option.some.injEq]
    exact eq_comm
  · intro id node present kind
    have joins := (merges present).mp kind
    exact ⟨built.count_targets joins, built.forksTo_iff joins⟩
  · exact fun _ _ _ _ => built.sides

theorem Body.build_wellFormed_fork : ∃ body,
    Body.build {} Source.fork.arity Source.fork.function = .ok body ∧ body.graph.size = 6 ∧
    body.graph.ForksTo 2 1 ∧ body.graph.WellFormed := by
  have seen : ((Body.build {} Source.fork.arity Source.fork.function).map fun body =>
      (body.graph.size, body.graph.merge? 2)) = .ok (6, some 1) := by cbv
  cases done : Body.build {} Source.fork.arity Source.fork.function with
  | error => rw [done] at seen; cases seen
  | ok body =>
      rw [done] at seen
      obtain ⟨size, names⟩ := Prod.mk.inj (Except.ok.inj seen)
      exact ⟨body, rfl, size, Graph.forksTo_iff.mpr names, Body.build_wellFormed done⟩

end Resumable
