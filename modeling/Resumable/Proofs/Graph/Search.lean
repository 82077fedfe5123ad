import Mathlib.Data.List.Nodup
import Resumable.Graph.Search

/-! What a walk over a graph finds: the ids it starts from and everything that can be reached from
them, each once. -/

namespace Resumable.Graph

def Stays (graph : Graph) (next : NodeId → Node → Except Failure (List NodeId))
    (P : NodeId → Prop) : Prop :=
  ∀ id node ids, P id → graph.node? id = some node → next id node = .ok ids → ∀ x ∈ ids, P x

theorem unseen_le_of_subset {graph : Graph} {seen found : List NodeId} (kept : seen ⊆ found) :
    graph.unseen found ≤ graph.unseen seen := by
  rw [unseen, unseen, ← List.countP_eq_length_filter, ← List.countP_eq_length_filter]
  apply List.countP_mono_left
  intro id _ fresh
  simp only [Bool.not_eq_true', List.contains_eq_mem, decide_eq_false_iff_not] at fresh ⊢
  exact fun old => fresh (kept old)

variable {graph : Graph} {next : NodeId → Node → Except Failure (List NodeId)}
  {seen stack found : List NodeId}

theorem explore_nodup (distinct : seen.Nodup) (done : graph.explore next seen stack = .ok found) :
    found.Nodup := by
  fun_induction explore graph next seen stack with
  | case1 seen =>
      cases done
      exact distinct
  | case2 seen id rest known ih => exact ih distinct done
  | case3 => cases done
  | case4 => cases done
  | case5 seen id rest fresh node present ids _ ih =>
      refine ih ?_ done
      rw [← List.concat_eq_append]
      exact distinct.concat fresh

theorem explore_subset {P : NodeId → Prop} (stays : graph.Stays next P) (old : ∀ id ∈ seen, P id)
    (start : ∀ id ∈ stack, P id) (done : graph.explore next seen stack = .ok found) :
    ∀ id ∈ found, P id := by
  fun_induction explore graph next seen stack with
  | case1 seen =>
      cases done
      exact old
  | case2 seen id rest known ih =>
      exact ih old (fun x member => start x (List.mem_cons_of_mem _ member)) done
  | case3 => cases done
  | case4 => cases done
  | case5 seen id rest fresh node present ids goes ih =>
      have here := start id List.mem_cons_self
      refine ih ?_ ?_ done
      · intro x member
        rcases List.mem_append.mp member with before | last
        · exact old x before
        · rw [List.mem_singleton.mp last]
          exact here
      · intro x member
        rcases List.mem_append.mp member with new | later
        · exact stays id node ids here present goes x new
        · exact start x (List.mem_cons_of_mem _ later)

theorem explore_ok {P : NodeId → Prop}
    (goes : ∀ id, P id → ∃ node ids, graph.node? id = some node ∧ next id node = .ok ids ∧
      ∀ x ∈ ids, P x)
    (start : ∀ id ∈ stack, P id) : ∃ found, graph.explore next seen stack = .ok found := by
  fun_induction explore graph next seen stack with
  | case1 seen => exact ⟨seen, rfl⟩
  | case2 seen id rest known ih =>
      exact ih fun x member => start x (List.mem_cons_of_mem _ member)
  | case3 seen id rest fresh absent =>
      obtain ⟨node, _, present, _⟩ := goes id (start id List.mem_cons_self)
      cases absent.symm.trans present
  | case4 seen id rest fresh node present failure failed =>
      obtain ⟨node', ids, present', done, _⟩ := goes id (start id List.mem_cons_self)
      cases present.symm.trans present'
      cases failed.symm.trans done
  | case5 seen id rest fresh node present ids done ih =>
      obtain ⟨node', ids', present', done', inside⟩ := goes id (start id List.mem_cons_self)
      cases present.symm.trans present'
      cases done.symm.trans done'
      refine ih fun x member => ?_
      rcases List.mem_append.mp member with new | later
      · exact inside x new
      · exact start x (List.mem_cons_of_mem _ later)

theorem subset_explore (done : graph.explore next seen stack = .ok found) :
    seen ⊆ found ∧ stack ⊆ found := by
  fun_induction explore graph next seen stack with
  | case1 seen =>
      cases done
      exact ⟨List.Subset.refl _, List.nil_subset _⟩
  | case2 seen id rest known ih =>
      obtain ⟨before, later⟩ := ih done
      exact ⟨before, List.cons_subset.mpr ⟨before known, later⟩⟩
  | case3 => cases done
  | case4 => cases done
  | case5 seen id rest fresh node present ids goes ih =>
      obtain ⟨before, later⟩ := ih done
      refine ⟨fun x member => before (List.mem_append_left _ member),
        List.cons_subset.mpr ⟨before (by simp), fun x member => ?_⟩⟩
      exact later (List.mem_append_right _ member)

theorem explore_stays
    (inside : ∀ id ∈ seen, ∀ node ids, graph.node? id = some node → next id node = .ok ids →
      ∀ x ∈ ids, x ∈ seen ∨ x ∈ stack)
    (done : graph.explore next seen stack = .ok found) : graph.Stays next (· ∈ found) := by
  fun_induction explore graph next seen stack with
  | case1 seen =>
      cases done
      intro id node ids member present goes x further
      rcases inside id member node ids present goes x further with here | impossible
      · exact here
      · cases impossible
  | case2 seen id rest known ih =>
      refine ih (fun y member node ids present goes x further => ?_) done
      rcases inside y member node ids present goes x further with here | here
      · exact .inl here
      · rcases List.mem_cons.mp here with rfl | later
        · exact .inl known
        · exact .inr later
  | case3 => cases done
  | case4 => cases done
  | case5 seen id rest fresh node present ids goes ih =>
      refine ih (fun y member node' ids' present' goes' x further => ?_) done
      rcases List.mem_append.mp member with before | last
      · rcases inside y before node' ids' present' goes' x further with here | here
        · exact .inl (List.mem_append_left _ here)
        · rcases List.mem_cons.mp here with rfl | later
          · exact .inl (by simp)
          · exact .inr (List.mem_append_right _ later)
      · rw [List.mem_singleton.mp last, present, Option.some.injEq] at present'
        rw [List.mem_singleton.mp last, ← present', goes, Except.ok.injEq] at goes'
        exact .inr (List.mem_append_left _ (goes' ▸ further))

theorem explore_visits
    (old : ∀ id ∈ seen, ∃ node ids, graph.node? id = some node ∧ next id node = .ok ids)
    (done : graph.explore next seen stack = .ok found) :
    ∀ id ∈ found, ∃ node ids, graph.node? id = some node ∧ next id node = .ok ids := by
  fun_induction explore graph next seen stack with
  | case1 seen =>
      cases done
      exact old
  | case2 seen id rest known ih => exact ih old done
  | case3 => cases done
  | case4 => cases done
  | case5 seen id rest fresh node present ids goes ih =>
      refine ih (fun x member => ?_) done
      rcases List.mem_append.mp member with before | last
      · exact old x before
      · rw [List.mem_singleton.mp last]
        exact ⟨node, ids, present, goes⟩

section Discover

variable {id : NodeId} {node : Node}

theorem discover_missing (absent : graph.node? id = none) :
    graph.discover seen (id :: stack) = graph.discover seen stack := by
  rw [discover]
  split
  · rfl
  · rename_i present
    cases absent.symm.trans present

theorem discover_known (known : id ∈ seen) :
    graph.discover seen (id :: stack) = graph.discover seen stack := by
  rw [discover]
  split
  · rfl
  · exact dif_pos known

theorem discover_fresh (fresh : id ∉ seen) (present : graph.node? id = some node) :
    graph.discover seen (id :: stack) =
      graph.discover (seen ++ [id]) (node.successors ++ stack) := by
  rw [discover]
  split
  · rename_i absent
    cases absent.symm.trans present
  · rename_i other found
    obtain rfl := Option.some.inj (present.symm.trans found)
    exact dif_neg fresh

end Discover

/-- Passing over ids that point nowhere is a walk along the edges that lead somewhere. -/
theorem explore_discover (graph : Graph) (seen stack : List NodeId) :
    graph.explore (fun _ node => .ok (node.successors.filter fun id => (graph.node? id).isSome)) seen
      (stack.filter fun id => (graph.node? id).isSome) = .ok (graph.discover seen stack) := by
  fun_induction discover graph seen stack with
  | case1 seen =>
      rw [List.filter_nil, explore]
  | case2 seen id rest absent ih =>
      rw [List.filter_cons_of_neg (by simp [absent])]
      exact ih
  | case3 seen id rest node present known ih =>
      rw [List.filter_cons_of_pos (by simp [present]), explore, dif_pos known]
      exact ih
  | case4 seen id rest node present fresh ih =>
      rw [List.filter_cons_of_pos (by simp [present]), explore, dif_neg fresh]
      rw [List.filter_append] at ih
      split
      · rename_i absent
        cases absent.symm.trans present
      · rename_i other found
        obtain rfl := Option.some.inj (present.symm.trans found)
        exact ih

theorem reachable_nodup (graph : Graph) : graph.reachable.Nodup := by
  rw [reachable]
  cases graph.head with
  | none => exact List.nodup_nil
  | some head => exact explore_nodup List.nodup_nil (graph.explore_discover [] [head])

section Walk

variable (done : graph.explore next [] stack = .ok found)

include done

theorem walk_visits : ∀ id ∈ found, ∃ node ids,
    graph.node? id = some node ∧ next id node = .ok ids :=
  explore_visits (fun _ impossible => by cases impossible) done

theorem walk_stays : graph.Stays next (· ∈ found) :=
  explore_stays (fun _ impossible => by cases impossible) done

theorem members_keys : (graph.members found).map Prod.fst = found := by
  rw [members, List.map_filterMap]
  calc
    found.filterMap (fun id => ((graph.node? id).map (id, ·)).map Prod.fst) =
        found.filterMap some := by
      apply List.filterMap_congr
      intro id listed
      obtain ⟨node, _, present, _⟩ := walk_visits done id listed
      rw [present]
      rfl
    _ = found := List.filterMap_some

end Walk

end Resumable.Graph
