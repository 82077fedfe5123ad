import Mathlib
import Resumable.Proofs.Region.Numbering

/-! What the parts of an analysis have to do with each other, on every graph that can be analysed. -/

namespace Resumable

variable {body : Body} {settings : Settings} {analysis : Analysis}

/-- The parts of an analysis fit together. Regions stand at their numbers, and the map has the start
of each of them and nothing else. The exits of a region are its suspensions; each continues in the
region that starts at its only successor, wherever it belongs, or completes the machine. -/
structure Analysis.Coherent (graph : Graph) (analysis : Analysis) : Prop where
  numbered : ∀ (id : Nat) region, analysis.regions[id]? = some region → region.id = id
  mapped : ∀ start id, (start, id) ∈ analysis.numbers ↔
    ∃ region, analysis.regions[id]? = some region ∧ region.start = start
  keys : (analysis.numbers.map Prod.fst).Nodup
  apart : ∀ (id other : Nat) region region', analysis.regions[id]? = some region →
    analysis.regions[other]? = some region' → region.start = region'.start → id = other
  exits : ∀ region ∈ analysis.regions, (region.exits.map Prod.fst).Nodup ∧
    ∀ exit, exit ∈ region.exits.map Prod.fst ↔ exit ∈ region.nodes ∧
      ∃ node, graph.node? exit = some node ∧ node.isSuspension = true
  targets : ∀ region ∈ analysis.regions, ∀ exit target, (exit, target) ∈ region.exits →
    ∃ node, graph.node? exit = some node ∧ (node.successors = [] ∧ target = .complete ∨
      ∃ (id : Nat) (next : Region), analysis.regions[id]? = some next ∧
        node.successors = [next.start] ∧ target = .region id)
  agree : ∀ region ∈ analysis.regions, ∀ region' ∈ analysis.regions, ∀ exit target target',
    (exit, target) ∈ region.exits → (exit, target') ∈ region'.exits → target = target'
  continuations : ∀ region ∈ analysis.regions, region.continuations.Nodup ∧
    ∀ id, id ∈ region.continuations ↔ ∃ exit, (exit, .region id) ∈ region.exits
  bounded : ∀ region ∈ analysis.regions, ∀ id ∈ region.continuations,
    id < analysis.regions.length
  continued : ∀ (id : Nat), id < analysis.regions.length → id ≠ 0 →
    ∃ region ∈ analysis.regions, id ∈ region.continuations

/-- The regions of every graph that can be analysed are numbered consistently. -/
theorem Body.analyze_coherent (analysed : body.analyze settings = .ok analysis) :
    analysis.Coherent body.graph := by
  obtain ⟨head, _, numbers, all, made⟩ := Body.analyze_made analysed
  refine ⟨?_, ?_, made.distinct, ?_, ?_, ?_, ?_, ?_, ?_, ?_⟩
  · intro id region present
    exact (made.region id region present).1
  · intro start id
    rw [numbers]
    exact made.mem_zipIdx_iff all start id
  · intro id other region region' present present' same
    have here := (made.region id region present).2.1
    have there := (made.region other region' present').2.1
    rw [← same] at there
    have below := (List.getElem?_eq_some_iff.mp here).1
    exact (List.getElem?_inj below made.distinct).mp (here.trans there.symm)
  · intro region member
    obtain ⟨found, walked⟩ := made.walked_of_mem member
    exact ⟨walked.exits_distinct, walked.mem_exit_nodes⟩
  · intro region member exit target listed
    exact made.continues_in all member listed
  · intro region member region' member' exit target target' listed listed'
    obtain ⟨found, walked⟩ := made.walked_of_mem member
    obtain ⟨found', walked'⟩ := made.walked_of_mem member'
    obtain ⟨node, present, rfl⟩ := walked.target_eq listed
    obtain ⟨node', present', rfl⟩ := walked'.target_eq listed'
    obtain rfl := Option.some.inj (present.symm.trans present')
    rfl
  · intro region member
    obtain ⟨found, walked⟩ := made.walked_of_mem member
    exact walked.continuations_once
  · intro region member id continues
    obtain ⟨found, walked⟩ := made.walked_of_mem member
    obtain ⟨next, further, rfl⟩ := walked.mem_continuations.mp continues
    rw [all]
    exact List.idxOf_lt_length_iff.mpr (walked.known next further)
  · intro id below notFirst
    obtain ⟨before, rfl⟩ := Nat.exists_eq_succ_of_ne_zero notFirst
    obtain ⟨_, region, _, present, continues⟩ :=
      made.origin before _ (List.getElem?_eq_getElem (all ▸ below))
    exact ⟨region, List.mem_of_getElem? present, continues⟩

/-- A graph that no front end gives: ways that come back without a suspension, branches that name
nodes which are no merges, and regions that continue in each other and in themselves. -/
def Body.knot : Body :=
  let node (id : NodeId) (kind : NodeKind) (successors : List NodeId) (reads : List VarId)
      (declares : Option VarId) : Node :=
    { id, uid := id, kind, scope := 0, successors, reads, declares, location := {} }
  let hand : NodeKind := .suspend (.int 0 {})
  let run : NodeKind := .statement (.evaluate (.int 0 {}) {})
  { graph := {
      nodes := #[
        node 0 (.branch (.bool true {}) 2) [1, 3] [] none,
        node 1 hand [0] [] none,
        node 2 .merge [] [] none,
        node 3 run [4] [0] none,
        node 4 (.branch (.bool true {}) 3) [3, 5] [] none,
        node 5 hand [6] [] none,
        node 6 run [7] [2] (some 1),
        node 7 hand [3] [] none]
      head := some 0 }
    symbols := {}
    params := []
    yieldType := .int
    warnings := [] }

theorem Body.analyze_coherent_knot : ∃ analysis, Body.knot.analyze {} = .ok analysis ∧
    analysis.numbers = [(0, 0), (6, 1), (3, 2)] ∧
    analysis.regions.map Region.continuations = [[0, 1], [2], [1]] ∧
    analysis.Coherent Body.knot.graph := by
  have seen : (Body.knot.analyze {}).map (fun analysis : Analysis =>
      (analysis.numbers, analysis.regions.map Region.continuations)) =
        .ok ([(0, 0), (6, 1), (3, 2)], [[0, 1], [2], [1]]) := by cbv
  cases analysed : Body.knot.analyze {} with
  | error failure =>
      rw [analysed] at seen
      cases seen
  | ok analysis =>
      rw [analysed] at seen
      obtain ⟨numbers, continuations⟩ := Prod.mk.inj (Except.ok.inj seen)
      exact ⟨analysis, rfl, numbers, continuations, Body.analyze_coherent analysed⟩

end Resumable
