import Resumable.Proofs.Region.Numbering
import Resumable.Proofs.Route.Reach

/-! The regions of a graph in which a route lies: each is the front of a part of the route, and
every suspension of it continues where another region starts. -/

namespace Resumable

namespace Route

variable {graph : Graph} {next : Option NodeId} {route : Route}

theorem front_at (laid : Laid graph next route) {site : Site} (member : site ∈ route.front) :
    ∃ kind successors, site.At graph kind successors ∧
      (kind.isSuspension = true → ∃ halt ∈ route.halts, halt.site = site) := by
  induction route generalizing next with
  | stop => cases member
  | plain other statement rest ih =>
      rcases List.mem_cons.mp member with rfl | later
      · refine ⟨_, _, laid.1, fun loud => ?_⟩
        rw [plainKind_calm] at loud
        cases loud
      · exact ih laid.2 later
  | suspend other payload rest _ =>
      have equal : site = other := List.mem_singleton.mp member
      subst equal
      exact ⟨_, _, laid.1, fun _ => ⟨_, List.mem_cons_self, rfl⟩⟩
  | branch other condition thenRoute elseRoute rest thenIH elseIH ih =>
      obtain ⟨merge, thenHead, elseHead, meets, starts, starts', fork, inThen, inElse, last⟩ := laid
      simp only [front, halts, List.mem_cons, List.mem_append, List.mem_map] at member ⊢
      rcases member with rfl | member | member | member
      · exact ⟨_, _, fork, fun impossible => by cases impossible⟩
      · obtain ⟨kind, successors, at_, halts⟩ := thenIH inThen member
        refine ⟨kind, successors, at_, fun loud => ?_⟩
        obtain ⟨halt, present, same⟩ := halts loud
        exact ⟨halt.followedBy rest, .inl ⟨halt, present, rfl⟩, same⟩
      · obtain ⟨kind, successors, at_, halts⟩ := elseIH inElse member
        refine ⟨kind, successors, at_, fun loud => ?_⟩
        obtain ⟨halt, present, same⟩ := halts loud
        exact ⟨halt.followedBy rest, .inr (.inl ⟨halt, present, rfl⟩), same⟩
      · split at member
        · rename_i passes
          obtain ⟨kind, successors, at_, halts⟩ := ih last member
          refine ⟨kind, successors, at_, fun loud => ?_⟩
          obtain ⟨halt, present, same⟩ := halts loud
          rw [if_pos passes]
          exact ⟨halt, .inr (.inr present), same⟩
        · cases member

theorem halt_at (laid : Laid graph none route) {halt : Halt} (present : halt ∈ route.halts) :
    halt.site.At graph (.suspend halt.payload) halt.rest.first?.toList := by
  have at_ := (laid.of_mem_tails (halt_mem_tails present)).1
  rwa [Option.or_none] at at_

theorem explore_ok (laid : Laid graph none route) {e : NodeId} (starts : route.first? = some e) :
    ∃ found, graph.explore Region.onward [] [e] = .ok found := by
  refine Graph.explore_ok (P := fun id => ∃ site ∈ route.front, site.id = id) ?_ ?_
  · rintro _ ⟨site, member, rfl⟩
    obtain ⟨kind, successors, at_, loud⟩ := front_at laid member
    obtain ⟨node, present, is⟩ := at_
    have goes : ∃ ids, Region.onward site.id node = .ok ids := by
      cases suspends : kind.isSuspension with
      | false => exact ⟨_, onward_at_ok ⟨node, present, is⟩ rfl present suspends⟩
      | true =>
          obtain ⟨halt, inside, same⟩ := loud suspends
          obtain ⟨node', present', is'⟩ := halt_at laid inside
          rw [same, present, Option.some.injEq] at present'
          subst present'
          rw [Region.onward, Node.isSuspension, is'.kind, is'.successors]
          cases halt.rest.first? <;> exact ⟨[], rfl⟩
    obtain ⟨ids, done⟩ := goes
    refine ⟨node, ids, present, done, fun x further => ?_⟩
    rcases front_stays laid member present done x further with inside | ⟨impossible, _⟩
    · exact inside
    · cases impossible
  · intro id member
    rw [List.mem_singleton.mp member]
    exact first?_mem_front starts

/-- Where the machine goes on when a route is what is left. -/
def target (starts : List NodeId) (rest : Route) : Target :=
  match rest.first? with
  | none => .complete
  | some e => .region (starts.idxOf e)

end Route

namespace Region

variable {graph : Graph} {starts : List NodeId} {route : Route} {head : NodeId}
  {regions : List Region} {region : Region}

/-- A region that is the front of a route. -/
structure Covers (starts : List NodeId) (route : Route) (id : RegionId) (region : Region) :
    Prop where
  id : region.id = id
  start : route.first? = some region.start
  referenced : ∀ var, var ∈ region.referenced ↔ ∃ site ∈ route.front, var ∈ site.reads
  declared : ∀ var, var ∈ region.declared ↔ ∃ site ∈ route.front, site.declares = some var
  exits : ∀ halt ∈ route.halts,
    region.exits.lookup halt.site.id = some (halt.rest.target starts)
  continuations : ∀ next, next ∈ region.continuations ↔
    ∃ halt ∈ route.halts, ∃ e, halt.rest.first? = some e ∧ next = starts.idxOf e

theorem lookup_of_mem {β : Type} {entries : List (NodeId × β)} {id : NodeId} {value : β}
    (distinct : (entries.map Prod.fst).Nodup) (member : (id, value) ∈ entries) :
    entries.lookup id = some value := by
  induction entries with
  | nil => cases member
  | cons entry rest ih =>
      obtain ⟨fresh, further⟩ := List.nodup_cons.mp distinct
      rcases List.mem_cons.mp member with rfl | later
      · simp
      · have apart : (id == entry.1) = false := by
          have other : id ≠ entry.1 := fun same =>
            fresh (same ▸ List.mem_map_of_mem (f := Prod.fst) later)
          simpa using other
        rw [List.lookup_cons, apart]
        exact ih further later

variable {found : List NodeId}

theorem mem_members_iff (laid : Route.Laid graph none route)
    (reached : ∀ id, id ∈ found ↔ ∃ site ∈ route.front, site.id = id) (id : NodeId) (node : Node) :
    (id, node) ∈ graph.members found ↔ ∃ site ∈ route.front, site.id = id ∧
      ∃ kind successors, graph.node? id = some node ∧ node.Is site kind successors ∧
        (kind.isSuspension = true → ∃ halt ∈ route.halts, halt.site = site) := by
  rw [Graph.mem_members, reached]
  constructor
  · rintro ⟨⟨site, member, rfl⟩, present⟩
    obtain ⟨kind, successors, ⟨node', present', is⟩, halts⟩ := Route.front_at laid member
    rw [present, Option.some.injEq] at present'
    subst present'
    exact ⟨site, member, rfl, kind, successors, present, is, halts⟩
  · rintro ⟨site, member, rfl, kind, successors, present, is, halts⟩
    exact ⟨⟨site, member, rfl⟩, present⟩

theorem suspension_iff (laid : Route.Laid graph none route)
    (reached : ∀ id, id ∈ found ↔ ∃ site ∈ route.front, site.id = id) (id : NodeId) (node : Node) :
    ((id, node) ∈ graph.members found ∧ node.isSuspension = true) ↔
      ∃ halt ∈ route.halts, halt.site.id = id ∧ graph.node? id = some node ∧
        node.successors = halt.rest.first?.toList := by
  have whole : ∀ {halt : Halt}, halt ∈ route.halts → graph.node? halt.site.id = some node →
      node.isSuspension = true ∧ node.successors = halt.rest.first?.toList := by
    intro halt present there
    obtain ⟨node', there', is⟩ := Route.halt_at laid present
    rw [there, Option.some.injEq] at there'
    subst there'
    exact ⟨congrArg NodeKind.isSuspension is.kind, is.successors⟩
  rw [mem_members_iff laid reached]
  constructor
  · rintro ⟨⟨site, member, rfl, kind, successors, present, is, halts⟩, loud⟩
    obtain ⟨halt, inside, rfl⟩ := halts ((congrArg NodeKind.isSuspension is.kind).symm.trans loud)
    exact ⟨halt, inside, rfl, present, (whole inside present).2⟩
  · rintro ⟨halt, inside, rfl, present, _⟩
    obtain ⟨kind, successors, ⟨node', present', is⟩, halts⟩ :=
      Route.front_at laid (Route.halt_mem_front inside)
    rw [present, Option.some.injEq] at present'
    subst present'
    exact ⟨⟨halt.site, Route.halt_mem_front inside, rfl, kind, successors, present, is, halts⟩,
      (whole inside present).1⟩

theorem exists_node (laid : Route.Laid graph none route) {halt : Halt}
    (inside : halt ∈ route.halts) : ∃ node, graph.node? halt.site.id = some node ∧
      node.successors = halt.rest.first?.toList := by
  obtain ⟨node, present, is⟩ := Route.halt_at laid inside
  exact ⟨node, present, is.successors⟩

theorem targetOf_eq {node : Node} {rest : Route} (successors : node.successors = rest.first?.toList) :
    targetOf starts node = rest.target starts := by
  rw [targetOf, successors, Route.target]
  cases rest.first? <;> rfl

theorem continues_iff (laid : Route.Laid graph none route)
    (reached : ∀ id, id ∈ found ↔ ∃ site ∈ route.front, site.id = id) (next : NodeId) :
    Continues (graph.members found) next ↔
      ∃ halt ∈ route.halts, halt.rest.first? = some next := by
  constructor
  · rintro ⟨⟨id, node⟩, listed, suspends, first⟩
    obtain ⟨halt, inside, _, _, successors⟩ := (suspension_iff laid reached id node).mp
      ⟨listed, suspends⟩
    refine ⟨halt, inside, ?_⟩
    rw [successors] at first
    cases starts? : halt.rest.first? with
    | none => simp [starts?] at first
    | some e => simpa [starts?] using first
  · rintro ⟨halt, inside, starts?⟩
    obtain ⟨node, present, successors⟩ := exists_node laid inside
    obtain ⟨listed, suspends⟩ := (suspension_iff laid reached halt.site.id node).mpr
      ⟨halt, inside, rfl, present, successors⟩
    exact ⟨_, listed, suspends, by rw [successors, starts?]; rfl⟩

theorem Walked.covers (walked : Walked graph starts region found)
    (laid : Route.Laid graph none route) (entry : route.first? = some region.start)
    {id : RegionId} (number : region.id = id) : Covers starts route id region := by
  have reached := Route.mem_explore laid entry walked.walked
  refine ⟨number, entry, ?_, ?_, ?_, ?_⟩
  · intro var
    simp only [walked.referenced, VarSet.mem_ofList, List.mem_flatMap, Prod.exists]
    constructor
    · rintro ⟨id, node, listed, reads⟩
      obtain ⟨site, member, _, _, _, _, is, _⟩ := (mem_members_iff laid reached id node).mp listed
      exact ⟨site, member, is.reads ▸ reads⟩
    · rintro ⟨site, member, reads⟩
      obtain ⟨kind, successors, ⟨node, present, is⟩, halts⟩ := Route.front_at laid member
      exact ⟨site.id, node, (mem_members_iff laid reached _ _).mpr
        ⟨site, member, rfl, kind, successors, present, is, halts⟩, is.reads.symm ▸ reads⟩
  · intro var
    simp only [walked.declared, VarSet.mem_ofList, List.mem_filterMap, Prod.exists]
    constructor
    · rintro ⟨id, node, listed, made⟩
      obtain ⟨site, member, _, _, _, _, is, _⟩ := (mem_members_iff laid reached id node).mp listed
      exact ⟨site, member, is.declares ▸ made⟩
    · rintro ⟨site, member, made⟩
      obtain ⟨kind, successors, ⟨node, present, is⟩, halts⟩ := Route.front_at laid member
      exact ⟨site.id, node, (mem_members_iff laid reached _ _).mpr
        ⟨site, member, rfl, kind, successors, present, is, halts⟩, is.declares.symm ▸ made⟩
  · intro halt inside
    obtain ⟨node, present, successors⟩ := exists_node laid inside
    obtain ⟨listed, suspends⟩ := (suspension_iff laid reached halt.site.id node).mpr
      ⟨halt, inside, rfl, present, successors⟩
    exact lookup_of_mem walked.exits_distinct
      (walked.mem_exits.mpr ⟨node, listed, suspends, (targetOf_eq successors).symm⟩)
  · intro next
    rw [walked.mem_continuations]
    constructor
    · rintro ⟨e, continues, rfl⟩
      obtain ⟨halt, inside, starts?⟩ := (continues_iff laid reached e).mp continues
      exact ⟨halt, inside, e, starts?, rfl⟩
    · rintro ⟨halt, inside, e, starts?, rfl⟩
      exact ⟨e, (continues_iff laid reached e).mpr ⟨halt, inside, starts?⟩, rfl⟩

/-- Regions that split a route: one for each start, and a start for every continuation. -/
structure Splits (route : Route) (regions : List Region) (starts : List NodeId) : Prop where
  distinct : starts.Nodup
  first : starts.head? = route.first?
  inside : starts ⊆ route.ids
  length : regions.length = starts.length
  covers : ∀ tail ∈ route.tails, ∀ e, tail.first? = some e → e ∈ starts →
    ∃ region, regions[starts.idxOf e]? = some region ∧
      Covers starts tail (starts.idxOf e) region
  closed : ∀ tail ∈ route.tails, ∀ e, tail.first? = some e → e ∈ starts →
    ∀ halt ∈ tail.halts, ∀ next, halt.rest.first? = some next → next ∈ starts

theorem exists_tail {e : NodeId} (member : e ∈ route.ids) :
    ∃ tail ∈ route.tails, tail.first? = some e := by
  have listed : some e ∈ route.tails.map Route.first? := by
    rw [Route.entries_tails]
    exact List.mem_map_of_mem member
  obtain ⟨tail, inside, starts?⟩ := List.mem_map.mp listed
  exact ⟨tail, inside, starts?⟩

theorem mem_ids_of_halt {tail : Route} (inside : tail ∈ route.tails) {halt : Halt}
    (present : halt ∈ tail.halts) {e : NodeId} (starts? : halt.rest.first? = some e) :
    e ∈ route.ids := by
  have rest := Route.rest_mem_tails present fun empty => by
    rw [empty] at starts?
    cases starts?
  have listed : some e ∈ route.ids.map some := by
    rw [← Route.entries_tails, ← starts?]
    exact List.mem_map_of_mem (Route.tails_trans inside rest)
  simpa using listed

theorem Made.splits (made : Made graph head regions starts)
    (all : regions.length = starts.length) (laid : Route.Laid graph none route)
    (entry : route.first? = some head) :
    Splits route regions starts := by
  have inside : ∀ e ∈ starts, e ∈ route.ids := by
    refine made.all_starts (Route.mem_ids_of_first? entry) ?_
    intro region _ onRoute found walked next continues
    obtain ⟨tail, within, starts?⟩ := exists_tail onRoute
    have laidTail := laid.of_mem_tails within
    have reached := Route.mem_explore laidTail starts? walked.walked
    obtain ⟨halt, present, further⟩ := (continues_iff laidTail reached next).mp continues
    exact mem_ids_of_halt within present further
  have whole : ∀ tail ∈ route.tails, ∀ e, tail.first? = some e → e ∈ starts →
      ∃ region, regions[starts.idxOf e]? = some region ∧
        Covers starts tail (starts.idxOf e) region ∧
        ∀ halt ∈ tail.halts, ∀ next, halt.rest.first? = some next → next ∈ starts := by
    intro tail within e starts? member
    obtain ⟨region, present, rfl⟩ := made.of_start all member
    obtain ⟨number, _, found, walked⟩ := made.region _ region present
    have laidTail := laid.of_mem_tails within
    have reached := Route.mem_explore laidTail starts? walked.walked
    refine ⟨region, present, walked.covers laidTail starts? number, ?_⟩
    intro halt inTail next further
    exact walked.known next ((continues_iff laidTail reached next).mpr ⟨halt, inTail, further⟩)
  refine ⟨made.distinct, made.first.trans entry.symm, inside, all, ?_, ?_⟩
  · intro tail within e starts? member
    obtain ⟨region, present, covers, _⟩ := whole tail within e starts? member
    exact ⟨region, present, covers⟩
  · intro tail within e starts? member
    obtain ⟨_, _, _, closed⟩ := whole tail within e starts? member
    exact closed

/-- Every route is split into regions. -/
theorem discover_splits (laid : Route.Laid graph none route) (entry : route.first? = some head) :
    ∃ regions starts, discover graph head = .ok (regions, starts.zipIdx) ∧
      Splits route regions starts := by
  have discovers : ∃ regions numbers, discover graph head = .ok (regions, numbers) := by
    apply discoverFrom_ok (P := (· ∈ route.ids))
    · intro start onRoute
      obtain ⟨tail, within, starts?⟩ := exists_tail onRoute
      have laidTail := laid.of_mem_tails within
      obtain ⟨found, walked⟩ := Route.explore_ok laidTail starts?
      refine ⟨found, walked, fun next continues => ?_⟩
      obtain ⟨halt, present, further⟩ :=
        (continues_iff laidTail (Route.mem_explore laidTail starts? walked) next).mp continues
      exact mem_ids_of_halt within present further
    · intro start waits
      rw [List.mem_singleton.mp waits]
      exact Route.mem_ids_of_first? entry
  obtain ⟨regions, numbers, done⟩ := discovers
  obtain ⟨starts, rfl, all, made⟩ := discover_made done
  exact ⟨regions, starts, done, made.splits all laid entry⟩

end Region
end Resumable
