import Resumable.Proofs.Graph.Search
import Resumable.Proofs.Route.Laid
import Resumable.Region.Discovery

/-! A walk that stops at suspensions finds the front of the route it starts on, and nothing else. -/

namespace Resumable.Route

variable {graph : Graph} {next : Option NodeId} {route : Route}

theorem onward_at {site : Site} {kind : NodeKind} {successors ids : List NodeId} {id : NodeId}
    {node : Node} (at_ : site.At graph kind successors) (same : site.id = id)
    (present : graph.node? id = some node) (goes : Region.onward id node = .ok ids) :
    ids = if kind.isSuspension then [] else successors := by
  obtain ⟨found, there, is⟩ := at_
  rw [same, present, Option.some.injEq] at there
  subst there
  have suspends : node.isSuspension = kind.isSuspension := congrArg NodeKind.isSuspension is.kind
  unfold Region.onward at goes
  rw [suspends] at goes
  cases calm : kind.isSuspension with
  | false =>
      simp only [calm, Bool.false_eq_true, if_false, Except.ok.injEq] at goes ⊢
      rw [← goes, is.successors]
  | true =>
      simp only [calm, if_true] at goes ⊢
      split at goes
      · cases goes
      · exact (Except.ok.inj goes).symm

theorem onward_at_ok {site : Site} {kind : NodeKind} {successors : List NodeId} {id : NodeId}
    {node : Node} (at_ : site.At graph kind successors) (same : site.id = id)
    (present : graph.node? id = some node) (calm : kind.isSuspension = false) :
    Region.onward id node = .ok successors := by
  obtain ⟨found, there, is⟩ := at_
  rw [same, present, Option.some.injEq] at there
  subst there
  have quiet : node.isSuspension = false := (congrArg NodeKind.isSuspension is.kind).trans calm
  simp [Region.onward, quiet, is.successors]

theorem plainKind_calm (statement : Option Stmt) :
    (plainKind statement).isSuspension = false := by
  cases statement <;> rfl

theorem first?_mem_front {e : NodeId} (starts : route.first? = some e) :
    ∃ site ∈ route.front, site.id = e := by
  cases route with
  | stop => cases starts
  | plain site | suspend site | branch site =>
      exact ⟨site, by simp [front], Option.some.inj starts⟩

theorem front_reached {P : NodeId → Prop} (stays : graph.Stays Region.onward P)
    (laid : Laid graph next route) (start : ∀ e, route.first?.or next = some e → P e) :
    (∀ site ∈ route.front, P site.id) ∧ (route.passes = true → ∀ e, next = some e → P e) := by
  have step : ∀ {site : Site} {kind : NodeKind} {successors : List NodeId},
      site.At graph kind successors → kind.isSuspension = false → P site.id →
      ∀ x ∈ successors, P x := by
    intro site kind successors at_ calm here
    have ⟨node, present, _⟩ := at_
    exact stays site.id node successors here present (onward_at_ok at_ rfl present calm)
  induction route generalizing next with
  | stop => exact ⟨by simp [front], fun _ => start⟩
  | plain site statement rest ih =>
      obtain ⟨at_, further⟩ := laid
      have here : P site.id := start site.id rfl
      obtain ⟨reached, passed⟩ := ih further fun e follows =>
        step at_ (plainKind_calm statement) here e (by simp [follows])
      refine ⟨fun other member => ?_, passed⟩
      rcases List.mem_cons.mp member with rfl | later
      · exact here
      · exact reached other later
  | suspend site payload rest _ =>
      refine ⟨fun other member => ?_, fun impossible => by cases impossible⟩
      rw [List.mem_singleton.mp member]
      exact start site.id rfl
  | branch site condition thenRoute elseRoute rest thenIH elseIH ih =>
      obtain ⟨merge, thenHead, elseHead, meets, starts, starts', fork, inThen, inElse, last⟩ := laid
      have here : P site.id := start site.id rfl
      have both := step fork rfl here
      obtain ⟨reachedThen, passedThen⟩ := thenIH inThen fun e follows => by
        rw [starts, Option.some_or, Option.some.injEq] at follows
        exact both e (by simp [follows])
      obtain ⟨reachedElse, passedElse⟩ := elseIH inElse fun e follows => by
        rw [starts', Option.some_or, Option.some.injEq] at follows
        exact both e (by simp [follows])
      have through : (thenRoute.passes || elseRoute.passes) = true →
          (∀ site ∈ rest.front, P site.id) ∧ (rest.passes = true → ∀ e, next = some e → P e) := by
        intro passes
        refine ih last fun e follows => ?_
        rw [meets, Option.some_or, Option.some.injEq] at follows
        rcases Bool.or_eq_true_iff.mp passes with first | second
        · exact passedThen first e (congrArg some follows)
        · exact passedElse second e (congrArg some follows)
      refine ⟨fun other member => ?_, fun passes => ?_⟩
      · simp only [front, List.mem_cons, List.mem_append] at member
        rcases member with rfl | member | member | member
        · exact here
        · exact reachedThen other member
        · exact reachedElse other member
        · split at member
          · rename_i passes
            exact (through passes).1 other member
          · cases member
      · have split := Bool.and_eq_true_iff.mp passes
        exact (through split.1).2 split.2

theorem front_stays (laid : Laid graph next route) {site : Site} (member : site ∈ route.front)
    {node : Node} {ids : List NodeId} (present : graph.node? site.id = some node)
    (goes : Region.onward site.id node = .ok ids) (x : NodeId) (further : x ∈ ids) :
    (∃ other ∈ route.front, other.id = x) ∨ (next = some x ∧ route.passes = true) := by
  induction route generalizing next with
  | stop => cases member
  | plain other statement rest ih =>
      obtain ⟨at_, behind⟩ := laid
      rcases List.mem_cons.mp member with rfl | later
      · rw [onward_at at_ rfl present goes, plainKind_calm] at further
        have follows : rest.first?.or next = some x := by simpa using further
        rcases Option.or_eq_some_iff.mp follows with starts | ⟨empty, same⟩
        · obtain ⟨first, inside, same⟩ := first?_mem_front starts
          exact .inl ⟨first, List.mem_cons_of_mem _ inside, same⟩
        · rw [first?_eq_none.mp empty]
          exact .inr ⟨same, rfl⟩
      · rcases ih behind later with ⟨first, inside, same⟩ | passed
        · exact .inl ⟨first, List.mem_cons_of_mem _ inside, same⟩
        · exact .inr passed
  | suspend other payload rest _ =>
      have equal : site = other := List.mem_singleton.mp member
      subst equal
      rw [onward_at laid.1 rfl present goes] at further
      cases further
  | branch other condition thenRoute elseRoute rest thenIH elseIH ih =>
      obtain ⟨merge, thenHead, elseHead, meets, starts, starts', fork, inThen, inElse, last⟩ := laid
      obtain ⟨mergeSite, mergeIn, mergeSame⟩ := first?_mem_front meets
      simp only [front, List.mem_cons, List.mem_append] at member ⊢
      have joins : ∀ {part : Route}, (part.passes = true →
          (thenRoute.passes || elseRoute.passes) = true) →
          (∃ other ∈ part.front, other.id = x) ∨ (some merge = some x ∧ part.passes = true) →
          (∃ other ∈ part.front, other.id = x) ∨ ∃ other, other ∈ (if (thenRoute.passes ||
            elseRoute.passes) = true then rest.front else []) ∧ other.id = x := by
        intro part through reached
        rcases reached with inside | ⟨same, passes⟩
        · exact .inl inside
        · refine .inr ⟨mergeSite, ?_, mergeSame.trans (Option.some.inj same)⟩
          rw [if_pos (through passes)]
          exact mergeIn
      rcases member with rfl | member | member | member
      · rw [onward_at fork rfl present goes] at further
        simp only [NodeKind.isSuspension, Bool.false_eq_true, if_false, List.mem_cons,
          List.not_mem_nil, or_false] at further
        rcases further with rfl | rfl
        · obtain ⟨first, inside, same⟩ := first?_mem_front starts
          exact .inl ⟨first, .inr (.inl inside), same⟩
        · obtain ⟨first, inside, same⟩ := first?_mem_front starts'
          exact .inl ⟨first, .inr (.inr (.inl inside)), same⟩
      · rcases joins (fun passes => by simp [passes]) (thenIH inThen member) with
          ⟨first, inside, same⟩ | ⟨first, inside, same⟩
        · exact .inl ⟨first, .inr (.inl inside), same⟩
        · exact .inl ⟨first, .inr (.inr (.inr inside)), same⟩
      · rcases joins (fun passes => by simp [passes]) (elseIH inElse member) with
          ⟨first, inside, same⟩ | ⟨first, inside, same⟩
        · exact .inl ⟨first, .inr (.inr (.inl inside)), same⟩
        · exact .inl ⟨first, .inr (.inr (.inr inside)), same⟩
      · split at member
        · rename_i passes
          rw [if_pos passes]
          rcases ih last member with ⟨first, inside, same⟩ | ⟨same, passes'⟩
          · exact .inl ⟨first, .inr (.inr (.inr inside)), same⟩
          · exact .inr ⟨same, by simp [Route.passes, Bool.or_eq_true_iff.mp passes, passes']⟩
        · cases member

theorem mem_explore {e : NodeId} {found : List NodeId} (laid : Laid graph none route)
    (starts : route.first? = some e)
    (done : graph.explore Region.onward [] [e] = .ok found) (id : NodeId) :
    id ∈ found ↔ ∃ site ∈ route.front, site.id = id := by
  constructor
  · refine Graph.explore_subset (P := fun id => ∃ site ∈ route.front, site.id = id) ?_ (by simp)
      ?_ done id
    · rintro _ node ids ⟨site, member, rfl⟩ present goes x further
      rcases front_stays laid member present goes x further with here | ⟨impossible, _⟩
      · exact here
      · cases impossible
    · intro x member
      rw [List.mem_singleton.mp member]
      exact first?_mem_front starts
  · rintro ⟨site, member, rfl⟩
    have stays : graph.Stays Region.onward (· ∈ found) := Graph.explore_stays (by simp) done
    refine (front_reached stays laid fun x follows => ?_).1 site member
    rw [starts, Option.some_or, Option.some.injEq] at follows
    exact (Graph.subset_explore done).2 (by simp [follows])

end Resumable.Route
