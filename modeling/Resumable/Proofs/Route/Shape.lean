import Resumable.Proofs.Graph.Paths
import Resumable.Proofs.Route.Flow
import Resumable.Proofs.Route.Laid

/-! The shape of a graph in which a route lies: the edges go forward along the route, and its
branches are closed off. -/

namespace Resumable

def NodeKind.merge? : NodeKind → Option NodeId
  | branch _ join => some join
  | _ => none

def Graph.merge? (graph : Graph) (id : NodeId) : Option NodeId :=
  (graph.node? id).bind fun node => node.kind.merge?

theorem NodeKind.merge?_eq_some {kind : NodeKind} {join : NodeId} :
    kind.merge? = some join ↔ ∃ condition, kind = .branch condition join := by
  cases kind <;> simp [merge?]

theorem Graph.forksTo_iff {graph : Graph} {fork join : NodeId} :
    graph.ForksTo fork join ↔ graph.merge? fork = some join := by
  simp only [ForksTo, merge?, Option.bind_eq_some_iff, NodeKind.merge?_eq_some, exists_and_left]

theorem Site.At.successors_eq {site : Site} {graph : Graph} {kind : NodeKind}
    {successors : List NodeId} (at_ : site.At graph kind successors) :
    graph.successors site.id = successors := by
  obtain ⟨node, present, is⟩ := at_
  rw [Graph.successors_of_node? present, is.successors]

theorem Site.At.kind_eq {site : Site} {graph : Graph} {kind : NodeKind} {successors : List NodeId}
    {node : Node} (at_ : site.At graph kind successors)
    (present : graph.node? site.id = some node) : node.kind = kind := by
  obtain ⟨node', present', is⟩ := at_
  obtain rfl := Option.some.inj (present'.symm.trans present)
  exact is.kind

theorem Site.At.merge?_eq {site : Site} {graph : Graph} {kind : NodeKind}
    {successors : List NodeId} (at_ : site.At graph kind successors) :
    graph.merge? site.id = kind.merge? := by
  obtain ⟨node, present, is⟩ := at_
  rw [Graph.merge?, present, Option.bind_some, is.kind]

namespace Route

/-- Merges stand where two branches meet and nowhere else. The flag says whether the route starts
at such a place. -/
def Paired : Bool → Route → Prop
  | merging, stop => merging = false
  | merging, plain _ statement rest => statement.isNone = merging ∧ rest.Paired false
  | merging, suspend _ _ rest => merging = false ∧ rest.Paired false
  | merging, branch _ _ thenRoute elseRoute rest => merging = false ∧
      thenRoute.Paired false ∧ elseRoute.Paired false ∧ rest.Paired true

def merges : Route → List NodeId
  | stop => []
  | plain site none rest => site.id :: rest.merges
  | plain _ (some _) rest => rest.merges
  | suspend _ _ rest => rest.merges
  | branch _ _ thenRoute elseRoute rest => thenRoute.merges ++ (elseRoute.merges ++ rest.merges)

variable {graph : Graph} {next : Option NodeId} {route tail : Route} {merging : Bool}

theorem Paired.append (paired : route.Paired merging) (behind : tail.Paired false) :
    (route ++ tail).Paired merging := by
  induction route generalizing merging with
  | stop =>
      cases paired
      exact behind
  | plain _ _ _ ih | suspend _ _ _ ih => exact ⟨paired.1, ih paired.2⟩
  | branch _ _ _ _ _ _ _ ih => exact ⟨paired.1, paired.2.1, paired.2.2.1, ih paired.2.2.2⟩

theorem merges_sublist (route : Route) : route.merges.Sublist route.ids := by
  induction route with
  | stop => exact List.Sublist.refl _
  | plain site statement rest ih =>
      cases statement with
      | none => exact ih.cons_cons _
      | some => exact ih.cons _
  | suspend _ _ _ ih => exact ih.cons _
  | branch _ _ _ _ _ thenIH elseIH ih =>
      rw [ids_branch]
      exact (thenIH.append (elseIH.append ih)).cons _

theorem Paired.first?_notMem (paired : route.Paired false) (distinct : route.ids.Nodup)
    {id : NodeId} (first : route.first? = some id) : id ∉ route.merges := by
  intro joins
  cases route with
  | stop => cases first
  | plain site statement rest =>
      cases first
      cases statement with
      | none => cases paired.1
      | some => exact (List.nodup_cons.mp distinct).1 (rest.merges_sublist.subset joins)
  | suspend site _ rest =>
      cases first
      exact (List.nodup_cons.mp distinct).1 (rest.merges_sublist.subset joins)
  | branch site _ thenRoute elseRoute rest =>
      cases first
      rw [ids_branch] at distinct
      exact (List.nodup_cons.mp distinct).1 ((thenRoute.merges_sublist.append
        (elseRoute.merges_sublist.append rest.merges_sublist)).subset joins)

/-- The two routes between a branch of a route and its merge. -/
structure Sides (graph : Graph) (route : Route) (node : Node) (merge : NodeId)
    (thenRoute elseRoute : Route) : Prop where
  inThen : Laid graph (some merge) thenRoute
  inElse : Laid graph (some merge) elseRoute
  apart : (thenRoute.ids ++ elseRoute.ids).Sublist route.ids
  heads : ∃ thenHead elseHead, node.successors = [thenHead, elseHead] ∧
    thenRoute.first? = some thenHead ∧ elseRoute.first? = some elseHead
  joins : merge ∈ route.merges

theorem Sides.widen {part : Route} {node : Node} {merge : NodeId} {thenRoute elseRoute : Route}
    (sides : Sides graph part node merge thenRoute elseRoute) (inside : part.ids.Sublist route.ids)
    (merges : part.merges ⊆ route.merges) : Sides graph route node merge thenRoute elseRoute :=
  { sides with apart := sides.apart.trans inside, joins := merges sides.joins }

namespace Laid

theorem forward (laid : Laid graph next route) : graph.Forward (next = some ·) route.ids := by
  have onward : ∀ {rest : Route} {next : Option NodeId}, ∀ other ∈ (rest.first?.or next).toList,
      other ∈ rest.ids ∨ next = some other := by
    intro rest next other there
    rcases Option.or_eq_some_iff.mp (Option.mem_toList.mp there) with first | ⟨_, behind⟩
    · exact .inl (mem_ids_of_first? first)
    · exact .inr behind
  induction route generalizing next with
  | stop => trivial
  | plain site _ rest ih | suspend site _ rest ih =>
      obtain ⟨at_, further⟩ := laid
      exact ⟨fun other edge => onward other (at_.successors_eq ▸ edge), ih further⟩
  | branch site _ thenRoute elseRoute rest thenIH elseIH ih =>
      obtain ⟨merge, thenHead, elseHead, meets, starts, starts', fork, inThen, inElse, last⟩ := laid
      have joins : ∀ other, some merge = some other → other ∈ rest.ids :=
        fun other same => Option.some.inj same ▸ mem_ids_of_first? meets
      have behind := (elseIH inElse).append (ih last) fun other same => .inl (joins other same)
      rw [ids_branch]
      refine ⟨fun other edge => .inl ?_, (thenIH inThen).append behind fun other same =>
        .inl (List.mem_append_right _ (joins other same))⟩
      rw [fork.successors_eq, List.mem_pair] at edge
      rcases edge with rfl | rfl
      · exact List.mem_append_left _ (mem_ids_of_first? starts)
      · exact List.mem_append_right _ (List.mem_append_left _ (mem_ids_of_first? starts'))

theorem reached {P : NodeId → Prop}
    (stays : ∀ id, P id → ∀ other ∈ graph.successors id, P other) (laid : Laid graph next route)
    (start : ∀ id, route.first?.or next = some id → P id) :
    (∀ id ∈ route.ids, P id) ∧ ∀ id, next = some id → P id := by
  induction route generalizing next with
  | stop => exact ⟨by simp, start⟩
  | plain site _ rest ih | suspend site _ rest ih =>
      obtain ⟨at_, further⟩ := laid
      have here : P site.id := start site.id rfl
      obtain ⟨inside, behind⟩ := ih further fun id follows =>
        stays site.id here id (at_.successors_eq ▸ by simp [follows])
      exact ⟨List.forall_mem_cons.mpr ⟨here, inside⟩, behind⟩
  | branch site _ thenRoute elseRoute rest thenIH elseIH ih =>
      obtain ⟨merge, thenHead, elseHead, meets, starts, starts', fork, inThen, inElse, last⟩ := laid
      have here : P site.id := start site.id rfl
      have both := stays site.id here
      rw [fork.successors_eq] at both
      obtain ⟨first, joined⟩ := thenIH inThen fun id follows => by
        rw [starts, Option.some_or, Option.some.injEq] at follows
        exact both id (by simp [follows])
      obtain ⟨second, _⟩ := elseIH inElse fun id follows => by
        rw [starts', Option.some_or, Option.some.injEq] at follows
        exact both id (by simp [follows])
      obtain ⟨third, behind⟩ := ih last fun id follows => by
        rw [meets, Option.some_or] at follows
        exact joined id follows
      rw [ids_branch]
      exact ⟨List.forall_mem_cons.mpr ⟨here, List.forall_mem_append.mpr ⟨first,
        List.forall_mem_append.mpr ⟨second, third⟩⟩⟩, behind⟩

theorem node (laid : Laid graph next route) {id : NodeId} (member : id ∈ route.ids) :
    ∃ node, graph.node? id = some node ∧ node.id = id ∧
      (node.successors.length ≤ 1 ∨ ∃ condition merge, node.kind = .branch condition merge) := by
  have straight : ∀ {site : Site} {kind : NodeKind} {successors : List NodeId},
      site.At graph kind successors →
      (successors.length ≤ 1 ∨ ∃ condition merge, kind = .branch condition merge) →
      ∃ node, graph.node? site.id = some node ∧ node.id = site.id ∧
        (node.successors.length ≤ 1 ∨ ∃ condition merge, node.kind = .branch condition merge) := by
    intro site kind successors at_ either
    obtain ⟨node, present, is⟩ := at_
    exact ⟨node, present, is.id, by rwa [is.successors, is.kind]⟩
  have short : ∀ o : Option NodeId, o.toList.length ≤ 1 := fun o => by cases o <;> simp
  induction route generalizing next with
  | stop => cases member
  | plain site _ rest ih | suspend site _ rest ih =>
      rcases List.mem_cons.mp member with rfl | later
      · exact straight laid.1 (.inl (short _))
      · exact ih laid.2 later
  | branch site condition thenRoute elseRoute rest thenIH elseIH ih =>
      obtain ⟨merge, _, _, _, _, _, fork, inThen, inElse, last⟩ := laid
      rw [ids_branch] at member
      simp only [List.mem_cons, List.mem_append] at member
      rcases member with rfl | member | member | member
      · exact straight fork (.inr ⟨condition, merge, rfl⟩)
      · exact thenIH inThen member
      · exact elseIH inElse member
      · exact ih last member

theorem ends (laid : Laid graph next route) {id : NodeId} (member : id ∈ route.ids)
    (end_ : graph.successors id = []) : next = none ∧ route.last? = some id := by
  induction route generalizing next with
  | stop => cases member
  | plain site _ rest ih | suspend site _ rest ih =>
      rcases List.mem_cons.mp member with rfl | later
      · rw [laid.1.successors_eq, Option.toList_eq_nil_iff, Option.or_eq_none_iff] at end_
        obtain ⟨empty, nothing⟩ := end_
        obtain rfl := first?_eq_none.mp empty
        exact ⟨nothing, rfl⟩
      · obtain ⟨nothing, last⟩ := ih laid.2 later
        exact ⟨nothing, by rw [last?, last, Option.some_or]⟩
  | branch site _ thenRoute elseRoute rest thenIH elseIH ih =>
      obtain ⟨_, _, _, _, _, _, fork, inThen, inElse, behind⟩ := laid
      rw [ids_branch] at member
      simp only [List.mem_cons, List.mem_append] at member
      rcases member with rfl | member | member | member
      · rw [fork.successors_eq] at end_
        cases end_
      · cases (thenIH inThen member).1
      · cases (elseIH inElse member).1
      · obtain ⟨nothing, last⟩ := ih behind member
        exact ⟨nothing, by rw [last?, last, Option.some_or]⟩

theorem last_ends (laid : Laid graph none route) {id : NodeId} (last : route.last? = some id) :
    graph.successors id = [] := by
  induction route with
  | stop => cases last
  | plain site _ rest ih | suspend site _ rest ih =>
      rcases Option.or_eq_some_iff.mp last with inside | ⟨nothing, same⟩
      · exact ih laid.2 inside
      · obtain rfl := last?_eq_none.mp nothing
        exact Option.some.inj same ▸ laid.1.successors_eq
  | branch site _ thenRoute elseRoute rest _ _ ih =>
      obtain ⟨_, _, _, meets, _, _, _, _, _, behind⟩ := laid
      rcases Option.or_eq_some_iff.mp last with inside | ⟨nothing, _⟩
      · exact ih behind inside
      · rw [last?_eq_none.mp nothing] at meets
        cases meets

theorem kind_eq_merge (laid : Laid graph next route) {id : NodeId} {node : Node}
    (member : id ∈ route.ids) (present : graph.node? id = some node) :
    node.kind = .merge ↔ id ∈ route.merges := by
  constructor
  · intro kind
    induction route generalizing next with
    | stop => cases member
    | plain site statement rest ih =>
        rcases List.mem_cons.mp member with rfl | later
        · cases statement with
          | none => exact List.mem_cons_self
          | some => cases (laid.1.kind_eq present).symm.trans kind
        · cases statement with
          | none => exact List.mem_cons_of_mem _ (ih laid.2 later)
          | some => exact ih laid.2 later
    | suspend site _ rest ih =>
        rcases List.mem_cons.mp member with rfl | later
        · cases (laid.1.kind_eq present).symm.trans kind
        · exact ih laid.2 later
    | branch site _ thenRoute elseRoute rest thenIH elseIH ih =>
        obtain ⟨_, _, _, _, _, _, fork, inThen, inElse, last⟩ := laid
        rw [ids_branch] at member
        simp only [List.mem_cons, List.mem_append, merges] at member ⊢
        rcases member with rfl | member | member | member
        · cases (fork.kind_eq present).symm.trans kind
        · exact .inl (thenIH inThen member)
        · exact .inr (.inl (elseIH inElse member))
        · exact .inr (.inr (ih last member))
  · intro merges
    clear member
    induction route generalizing next with
    | stop => cases merges
    | plain site statement rest ih =>
        cases statement with
        | none =>
            rcases List.mem_cons.mp merges with rfl | later
            · exact laid.1.kind_eq present
            · exact ih laid.2 later
        | some => exact ih laid.2 merges
    | suspend site _ rest ih => exact ih laid.2 merges
    | branch site _ thenRoute elseRoute rest thenIH elseIH ih =>
        obtain ⟨_, _, _, _, _, _, _, inThen, inElse, last⟩ := laid
        simp only [Route.merges, List.mem_append] at merges
        rcases merges with member | member | member
        · exact thenIH inThen member
        · exact elseIH inElse member
        · exact ih last member

theorem sides (laid : Laid graph next route) (paired : route.Paired merging) {id merge : NodeId}
    {node : Node} {condition : Expr} (member : id ∈ route.ids)
    (present : graph.node? id = some node) (kind : node.kind = .branch condition merge) :
    ∃ thenRoute elseRoute, Sides graph route node merge thenRoute elseRoute := by
  induction route generalizing next merging with
  | stop => cases member
  | plain site statement rest ih =>
      rcases List.mem_cons.mp member with rfl | later
      · cases statement <;> cases (laid.1.kind_eq present).symm.trans kind
      · obtain ⟨thenRoute, elseRoute, sides⟩ := ih laid.2 paired.2 later
        refine ⟨thenRoute, elseRoute, sides.widen (List.sublist_cons_self _ _) ?_⟩
        cases statement with
        | none => exact List.subset_cons_self _ _
        | some => exact List.Subset.refl _
  | suspend site _ rest ih =>
      rcases List.mem_cons.mp member with rfl | later
      · cases (laid.1.kind_eq present).symm.trans kind
      · obtain ⟨thenRoute, elseRoute, sides⟩ := ih laid.2 paired.2 later
        exact ⟨thenRoute, elseRoute, sides.widen (List.sublist_cons_self _ _)
          (List.Subset.refl _)⟩
  | branch site test thenRoute elseRoute rest thenIH elseIH ih =>
      obtain ⟨merge', thenHead, elseHead, meets, starts, starts', fork, inThen, inElse, last⟩ := laid
      obtain ⟨-, pairedThen, pairedElse, pairedRest⟩ := paired
      have ids := ids_branch site test thenRoute elseRoute rest
      rw [ids] at member
      simp only [List.mem_cons, List.mem_append] at member
      rcases member with rfl | member | member | member
      · cases (fork.kind_eq present).symm.trans kind
        refine ⟨thenRoute, elseRoute, inThen, inElse, ?_, ?_, ?_⟩
        · rw [ids, ← List.append_assoc]
          exact (List.sublist_append_left _ _).cons _
        · obtain ⟨node', present', is⟩ := fork
          obtain rfl := Option.some.inj (present'.symm.trans present)
          exact ⟨thenHead, elseHead, is.successors, starts, starts'⟩
        · cases rest with
          | stop => cases meets
          | plain site' statement _ =>
              cases statement with
              | none =>
                  cases meets
                  simp [merges]
              | some => cases pairedRest.1
          | suspend => cases pairedRest.1
          | branch => cases pairedRest.1
      · obtain ⟨_, _, sides⟩ := thenIH inThen pairedThen member
        refine ⟨_, _, sides.widen ?_ (List.subset_append_left _ _)⟩
        exact ids ▸ (List.sublist_append_left _ _).cons _
      · obtain ⟨_, _, sides⟩ := elseIH inElse pairedElse member
        refine ⟨_, _, sides.widen ?_ (List.subset_append_of_subset_right _
          (List.subset_append_left _ _))⟩
        exact ids ▸ ((List.sublist_append_left _ _).trans (List.sublist_append_right _ _)).cons _
      · obtain ⟨_, _, sides⟩ := ih last pairedRest member
        refine ⟨_, _, sides.widen ?_ (List.subset_append_of_subset_right _
          (List.subset_append_right _ _))⟩
        exact ids ▸ ((List.sublist_append_right _ _).trans (List.sublist_append_right _ _)).cons _

/-- Every edge but the one into the entry is counted: one into each node, and another one into each
merge. A merge at the entry is come to twice from outside. -/
theorem count_successors (laid : Laid graph next route) (paired : route.Paired merging)
    (id : NodeId) :
    (if merging then route.first?.toList ++ route.first?.toList
      else (route.first?.or next).toList).count id +
        (route.ids.flatMap graph.successors).count id =
      route.ids.count id + route.merges.count id + next.toList.count id := by
  induction route generalizing next merging with
  | stop =>
      cases paired
      simp [merges, first?]
  | plain site statement rest ih =>
      have here := laid.1.successors_eq
      have behind := ih laid.2 paired.2
      obtain ⟨rfl, _⟩ := paired
      cases statement <;>
        simp only [Option.isNone_none, Option.isNone_some, if_true, Bool.false_eq_true, if_false,
          first?, Option.toList_some, Option.some_or, ids_plain, merges, List.flatMap_cons, here,
          List.count_append, List.count_cons, List.count_nil] at behind ⊢ <;>
        omega
  | suspend site _ rest ih =>
      have here := laid.1.successors_eq
      have behind := ih laid.2 paired.2
      obtain ⟨rfl, _⟩ := paired
      simp only [Bool.false_eq_true, if_false, first?, Option.toList_some, Option.some_or,
        ids_suspend, merges, List.flatMap_cons, here, List.count_append, List.count_cons,
        List.count_nil] at behind ⊢
      omega
  | branch site test thenRoute elseRoute rest thenIH elseIH ih =>
      obtain ⟨merge, thenHead, elseHead, meets, starts, starts', fork, inThen, inElse, last⟩ := laid
      obtain ⟨rfl, pairedThen, pairedElse, pairedRest⟩ := paired
      have here := fork.successors_eq
      have first := thenIH inThen pairedThen
      have second := elseIH inElse pairedElse
      have third := ih last pairedRest
      have entry : (branch site test thenRoute elseRoute rest).first? = some site.id := rfl
      simp only [entry, starts, starts', meets, if_true, Bool.false_eq_true, if_false,
        Option.toList_some, Option.some_or, ids_branch, merges, List.flatMap_cons,
        List.flatMap_append, here, List.count_append, List.count_cons, List.count_nil]
        at first second third ⊢
      omega

theorem count_merge? (laid : Laid graph next route) (paired : route.Paired merging) (id : NodeId) :
    (route.ids.filterMap graph.merge?).count id +
        (if merging then route.first?.toList else []).count id = route.merges.count id := by
  induction route generalizing next merging with
  | stop =>
      cases paired
      simp [merges]
  | plain site statement rest ih =>
      have here := laid.1.merge?_eq
      have behind := ih laid.2 paired.2
      obtain ⟨rfl, _⟩ := paired
      cases statement <;>
        simp only [plainKind, NodeKind.merge?, Option.isNone_none, Option.isNone_some, if_true,
          Bool.false_eq_true, if_false, first?, Option.toList_some, ids_plain, merges,
          List.filterMap_cons, here, List.count_cons, List.count_nil] at here behind ⊢ <;>
        omega
  | suspend site _ rest ih =>
      have here := laid.1.merge?_eq
      have behind := ih laid.2 paired.2
      obtain ⟨rfl, _⟩ := paired
      simp only [NodeKind.merge?, Bool.false_eq_true, if_false, first?, ids_suspend, merges,
        List.filterMap_cons, here, List.count_nil] at here behind ⊢
      omega
  | branch site _ thenRoute elseRoute rest thenIH elseIH ih =>
      obtain ⟨merge, thenHead, elseHead, meets, starts, starts', fork, inThen, inElse, last⟩ := laid
      obtain ⟨rfl, pairedThen, pairedElse, pairedRest⟩ := paired
      have here := fork.merge?_eq
      have first := thenIH inThen pairedThen
      have second := elseIH inElse pairedElse
      have third := ih last pairedRest
      simp only [NodeKind.merge?, meets, if_true, Bool.false_eq_true, if_false,
        Option.toList_some, ids_branch, merges, List.filterMap_cons, List.filterMap_append, here,
        List.count_append, List.count_cons, List.count_nil] at here first second third ⊢
      omega

end Laid
end Route

mutual

theorem Stmt.Flows.paired (s : Stmt) {route : Route} (flows : s.Flows route) :
    route.Paired false := by
  match s with
  | .declare .. | .assign .. | .loop .. | .select .. | .attempt .. =>
      obtain ⟨site, rfl⟩ := flows
      exact ⟨rfl, rfl⟩
  | .evaluate value location =>
      cases value with
      | _ =>
          obtain ⟨site, rfl⟩ := flows
          exact ⟨rfl, rfl⟩
  | .branch _ thenBranch none _ =>
      obtain ⟨fork, skip, merge, thenRoute, flowsThen, rfl⟩ := flows
      exact ⟨rfl, Stmt.Flows.paired thenBranch flowsThen, ⟨rfl, rfl⟩, rfl, rfl⟩
  | .branch _ thenBranch (some elseBranch) _ =>
      obtain ⟨fork, merge, thenRoute, elseRoute, flowsThen, flowsElse, rfl⟩ := flows
      exact ⟨rfl, Stmt.Flows.paired thenBranch flowsThen, Stmt.Flows.paired elseBranch flowsElse,
        rfl, rfl⟩
  | .block [] _ =>
      obtain ⟨site, rfl⟩ := flows
      exact ⟨rfl, rfl⟩
  | .block (first :: rest) _ => exact Stmt.FlowsAll.paired (first :: rest) flows

theorem Stmt.FlowsAll.paired (body : List Stmt) {route : Route}
    (flows : Stmt.FlowsAll body route) : route.Paired false := by
  match body with
  | [] =>
      obtain rfl : route = .stop := flows
      rfl
  | s :: rest =>
      obtain ⟨first, behind, flowsFirst, flowsRest, rfl⟩ := flows
      exact (Stmt.Flows.paired s flowsFirst).append (Stmt.FlowsAll.paired rest flowsRest)

end

end Resumable
