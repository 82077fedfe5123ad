import Resumable.Proofs.Region.Liveness
import Resumable.Proofs.Route.Demands

/-! What a region is made of: the nodes that a walk from its start finds, and the suspensions among
them. -/

namespace Resumable

namespace Region

variable {graph : Graph} {starts others found : List NodeId} {region : Region} {tail : Route}
  {id : RegionId} {exit : NodeId} {target : Target}

section Laid

variable (walked : Walked graph others region found) (laid : Route.Laid graph none tail)
  (covers : Covers starts tail id region)

include walked laid covers

theorem Walked.mem_nodes (node : NodeId) :
    node ∈ region.nodes ↔ ∃ site ∈ tail.front, site.id = node := by
  rw [walked.nodes_eq]
  exact Route.mem_explore laid covers.start walked.walked node

theorem Walked.mem_declared {var : VarId} :
    var ∈ region.declared ↔ graph.DeclaredAmong region.nodes var := by
  rw [covers.declared]
  constructor
  · rintro ⟨site, member, declares⟩
    obtain ⟨_, _, ⟨node, present, is⟩, _⟩ := Route.front_at laid member
    exact ⟨site.id, (walked.mem_nodes laid covers site.id).mpr ⟨site, member, rfl⟩, node, present,
      is.declares.trans declares⟩
  · rintro ⟨id, listed, node, present, declares⟩
    obtain ⟨site, member, rfl⟩ := (walked.mem_nodes laid covers id).mp listed
    obtain ⟨_, _, ⟨node', present', is⟩, _⟩ := Route.front_at laid member
    obtain rfl := Option.some.inj (present.symm.trans present')
    exact ⟨site, member, is.declares.symm.trans declares⟩

theorem Walked.halt_of_exit (member : (exit, target) ∈ region.exits) :
    ∃ halt ∈ tail.halts, halt.site.id = exit ∧ target = halt.rest.target starts := by
  have reached := Route.mem_explore laid covers.start walked.walked
  obtain ⟨node, listed, suspends, _⟩ := walked.mem_exits.mp member
  obtain ⟨halt, halts, rfl, _⟩ := (suspension_iff laid reached exit node).mp ⟨listed, suspends⟩
  refine ⟨halt, halts, rfl, ?_⟩
  have first := lookup_of_mem walked.exits_distinct member
  rw [covers.exits halt halts] at first
  exact (Option.some.inj first).symm

end Laid
end Region
end Resumable
