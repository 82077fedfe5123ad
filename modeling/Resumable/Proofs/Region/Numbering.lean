import Mathlib.Data.List.Nodup
import Resumable.Proofs.Graph.Search
import Resumable.Proofs.Outcome
import Resumable.Region.Liveness

/-! How the regions of any graph are numbered. A start gets its number when it is first met, before
its region is walked; it is the number of starts that were known until then. So the starts stand in
the order of their regions, and a suspension continues at the place of its successor among them. -/

namespace Resumable

theorem Target.region?_eq_some {target : Target} {id : RegionId} :
    target.region? = some id ↔ target = .region id := by
  cases target <;> simp [Target.region?]

namespace Region

variable {graph : Graph} {head : NodeId} {starts more middle found : List NodeId} {walked : Nat}
  {members : List (NodeId × Node)} {region : Region} {done regions : List Region}

def targetOf (starts : List NodeId) (node : Node) : Target :=
  match node.successors with
  | [] => .complete
  | continuation :: _ => .region (starts.idxOf continuation)

def exitsOf (starts : List NodeId) (members : List (NodeId × Node)) : List (NodeId × Target) :=
  (members.filter (·.2.isSuspension)).map fun (id, node) => (id, targetOf starts node)

/-- A node at which some suspension among the members continues. -/
def Continues (members : List (NodeId × Node)) (next : NodeId) : Prop :=
  ∃ member ∈ members, member.2.isSuspension = true ∧ member.2.successors.head? = some next

/-- More starts: those there were, in their places, and the added ones behind them. -/
structure Grows (starts more : List NodeId) (added : NodeId → Prop) : Prop where
  kept : starts <+: more
  distinct : starts.Nodup → more.Nodup
  mem : ∀ x, x ∈ more ↔ x ∈ starts ∨ added x

namespace Grows

variable {added further : NodeId → Prop}

theorem refl (starts : List NodeId) : Grows starts starts fun _ => False :=
  ⟨List.prefix_refl _, fun distinct => distinct, fun x => by simp⟩

theorem trans (first : Grows starts middle added) (second : Grows middle more further) :
    Grows starts more fun x => added x ∨ further x :=
  ⟨first.kept.trans second.kept, fun distinct => second.distinct (first.distinct distinct),
    fun x => by rw [second.mem, first.mem, or_assoc]⟩

theorem congr (grows : Grows starts more added) (same : ∀ x, added x ↔ further x) :
    Grows starts more further :=
  ⟨grows.kept, grows.distinct, fun x => (grows.mem x).trans (or_congr_right (same x))⟩

theorem of_mem {start : NodeId} (known : start ∈ starts) : Grows starts starts (· = start) := by
  refine ⟨List.prefix_refl _, fun distinct => distinct, fun x => ?_⟩
  constructor
  · exact .inl
  · rintro (old | rfl)
    · exact old
    · exact known

theorem append {start : NodeId} (fresh : start ∉ starts) :
    Grows starts (starts ++ [start]) (· = start) := by
  refine ⟨List.prefix_append _ _, fun distinct => ?_, fun x => by simp⟩
  rw [← List.concat_eq_append]
  exact distinct.concat fresh

end Grows

theorem idxOf_extend {x : NodeId} (kept : starts <+: more) (known : x ∈ starts) :
    more.idxOf x = starts.idxOf x := by
  obtain ⟨behind, rfl⟩ := kept
  exact List.idxOf_append_of_mem known

theorem exitsOf_extend (kept : starts <+: more)
    (known : ∀ next, Continues members next → next ∈ starts) :
    exitsOf more members = exitsOf starts members := by
  apply List.map_congr_left
  intro member listed
  obtain ⟨inside, suspends⟩ := List.mem_filter.mp listed
  refine Prod.ext rfl ?_
  change targetOf more member.2 = targetOf starts member.2
  unfold targetOf
  split
  · rfl
  · rename_i continuation _ successors
    have next := known continuation ⟨member, inside, suspends, by rw [successors]; rfl⟩
    rw [idxOf_extend kept next]

theorem nodup_eraseDups (ids : List RegionId) : ids.eraseDups.Nodup := by
  induction length : ids.length using Nat.strongRecOn generalizing ids with
  | _ count ih =>
      cases ids with
      | nil => exact List.nodup_nil
      | cons id rest =>
          rw [List.eraseDups_cons, List.nodup_cons]
          constructor
          · simp
          · apply ih _ _ _ rfl
            have shorter := List.length_filter_le (fun other => !other == id) rest
            rw [List.length_cons] at length
            omega

theorem lookup_zipIdx (starts : List NodeId) (first : Nat) (start : NodeId) :
    (starts.zipIdx first).lookup start =
      if start ∈ starts then some (first + starts.idxOf start) else none := by
  induction starts generalizing first with
  | nil => rfl
  | cons other rest ih =>
      rw [List.zipIdx_cons, List.lookup_cons]
      by_cases same : start = other
      · simp [same]
      · have apart : (start == other) = false := by simpa using same
        have behind : (other :: rest).idxOf start = rest.idxOf start + 1 :=
          List.idxOf_cons_ne _ fun equal => same equal.symm
        rw [apart, ih, behind]
        simp [same, Nat.add_comm, Nat.add_left_comm]

namespace Frontier

/-- A frontier that knows some starts, in this order, and has walked the first ones. -/
def listing (starts : List NodeId) (walked : Nat) : Frontier :=
  ⟨starts.zipIdx, starts.drop walked⟩

theorem number_listing (inside : walked < starts.length) (start : NodeId) :
    ∃ more, (listing starts (walked + 1)).number walked start =
      (more.idxOf start, listing more (walked + 1)) ∧ Grows starts more (· = start) := by
  unfold number listing
  rw [lookup_zipIdx]
  by_cases known : start ∈ starts
  · exact ⟨starts, by simp [known], .of_mem known⟩
  · have count : walked + 1 + (starts.drop (walked + 1)).length = starts.length := by
      rw [List.length_drop]
      omega
    have place : (starts ++ [start]).idxOf start = starts.length := by
      simp [List.idxOf_append_of_notMem known]
    refine ⟨starts ++ [start], ?_, .append known⟩
    simp only [if_neg known, count, place, Prod.mk.injEq, Frontier.mk.injEq, true_and]
    constructor
    · simp [List.zipIdx_append]
    · rw [List.drop_append_of_le_length (by omega)]

/-- The targets of a region's suspensions are numbered before their regions exist, and stay right
when more starts are found. -/
theorem exits_listing (inside : walked < starts.length) (members : List (NodeId × Node)) :
    ∃ more, (listing starts (walked + 1)).exits walked members =
      (exitsOf more members, listing more (walked + 1)) ∧
        Grows starts more (Continues members) := by
  induction members generalizing starts with
  | nil =>
      refine ⟨starts, rfl, (Grows.refl starts).congr fun x => ?_⟩
      simp [Continues]
  | cons member rest ih =>
      obtain ⟨id, node⟩ := member
      rw [exits]
      by_cases suspends : node.isSuspension = true
      · rw [if_pos suspends]
        cases successors : node.successors with
        | nil =>
            obtain ⟨more, others, grows⟩ := ih inside
            refine ⟨more, ?_, grows.congr fun x => by simp [Continues, successors]⟩
            simp [others, exitsOf, suspends, targetOf, successors]
        | cons continuation behind =>
            obtain ⟨middle, numbered, first⟩ := number_listing inside continuation
            have inside' : walked < middle.length :=
              Nat.lt_of_lt_of_le inside first.kept.length_le
            obtain ⟨more, others, grows⟩ := ih inside'
            have known : continuation ∈ middle := (first.mem _).mpr (.inr rfl)
            refine ⟨more, ?_, (first.trans grows).congr fun x => ?_⟩
            · simp [numbered, others, exitsOf, suspends, targetOf, successors,
                idxOf_extend grows.kept known]
            · simp [Continues, suspends, successors, eq_comm (a := continuation)]
      · rw [if_neg suspends]
        obtain ⟨more, others, grows⟩ := ih inside
        refine ⟨more, ?_, grows.congr fun x => by simp [Continues, suspends]⟩
        simp [others, exitsOf, suspends]

theorem mem_pending_exits {frontier : Frontier} {x : NodeId}
    (waits : x ∈ (frontier.exits walked members).2.pending) :
    x ∈ frontier.pending ∨ Continues members x := by
  induction members generalizing frontier with
  | nil => exact .inl waits
  | cons member rest ih =>
      have later : Continues rest x → Continues (member :: rest) x :=
        fun ⟨other, listed, holds⟩ => ⟨other, List.mem_cons_of_mem _ listed, holds⟩
      rw [exits] at waits
      split at waits
      · rename_i suspends
        split at waits
        · exact (ih waits).imp_right later
        · rename_i continuation _ successors
          rcases ih waits with old | further
          · unfold number at old
            split at old
            · exact .inl old
            · rcases List.mem_append.mp old with before | last
              · exact .inl before
              · refine .inr ⟨member, List.mem_cons_self, suspends, ?_⟩
                rw [successors, List.mem_singleton.mp last]
                rfl
          · exact .inr (later further)
      · exact (ih waits).imp_right later

end Frontier

/-- A region of the nodes that a walk from its start has found. -/
structure Walked (graph : Graph) (starts : List NodeId) (region : Region) (found : List NodeId) :
    Prop where
  walked : graph.explore onward [] [region.start] = .ok found
  nodes : region.nodes = (graph.members found).map Prod.fst
  referenced : region.referenced = .ofList ((graph.members found).flatMap (·.2.reads))
  declared : region.declared = .ofList ((graph.members found).filterMap (·.2.declares))
  exits : region.exits = exitsOf starts (graph.members found)
  continuations : region.continuations = (region.exits.filterMap (·.2.region?)).eraseDups
  known : ∀ next, Continues (graph.members found) next → next ∈ starts

namespace Walked

theorem extend (walked : Walked graph starts region found) (kept : starts <+: more) :
    Walked graph more region found :=
  { walked with
    exits := walked.exits.trans (exitsOf_extend kept walked.known).symm
    known := fun next continues => kept.subset (walked.known next continues) }

theorem withLiveness (walked : Walked graph starts region found) (liveIn liveOut : VarSet) :
    Walked graph starts { region with liveIn, liveOut } found :=
  ⟨walked.walked, walked.nodes, walked.referenced, walked.declared, walked.exits,
    walked.continuations, walked.known⟩

theorem nodes_eq (walked : Walked graph starts region found) : region.nodes = found :=
  walked.nodes.trans (Graph.members_keys walked.walked)

theorem mem_exits (walked : Walked graph starts region found) {exit : NodeId} {target : Target} :
    (exit, target) ∈ region.exits ↔ ∃ node, (exit, node) ∈ graph.members found ∧
      node.isSuspension = true ∧ target = targetOf starts node := by
  rw [walked.exits, exitsOf, List.mem_map]
  constructor
  · rintro ⟨⟨id, node⟩, listed, same⟩
    obtain ⟨inside, suspends⟩ := List.mem_filter.mp listed
    obtain ⟨rfl, rfl⟩ := Prod.mk.inj same
    exact ⟨node, inside, suspends, rfl⟩
  · rintro ⟨node, inside, suspends, rfl⟩
    exact ⟨(exit, node), List.mem_filter.mpr ⟨inside, suspends⟩, rfl⟩

theorem exits_distinct (walked : Walked graph starts region found) :
    (region.exits.map Prod.fst).Nodup := by
  have keys : region.exits.map Prod.fst =
      ((graph.members found).filter (·.2.isSuspension)).map Prod.fst := by
    simp [walked.exits, exitsOf, Function.comp_def]
  rw [keys]
  refine (List.filter_sublist.map Prod.fst).nodup ?_
  rw [Graph.members_keys walked.walked]
  exact Graph.explore_nodup List.nodup_nil walked.walked

theorem successors (walked : Walked graph starts region found) {exit : NodeId} {node : Node}
    (inside : (exit, node) ∈ graph.members found) (suspends : node.isSuspension = true) :
    node.successors = [] ∨ ∃ next, node.successors = [next] := by
  obtain ⟨listed, present⟩ := Graph.mem_members.mp inside
  obtain ⟨node', ids, present', goes⟩ := Graph.walk_visits walked.walked exit listed
  obtain rfl := Option.some.inj (present.symm.trans present')
  rw [onward, if_pos suspends] at goes
  split at goes
  · cases goes
  · rename_i several
    cases successors : node.successors with
    | nil => exact .inl rfl
    | cons next behind =>
        cases behind with
        | nil => exact .inr ⟨next, rfl⟩
        | cons other rest => exact absurd successors (several next other rest)

theorem mem_continuations (walked : Walked graph starts region found) {next : RegionId} :
    next ∈ region.continuations ↔
      ∃ e, Continues (graph.members found) e ∧ next = starts.idxOf e := by
  rw [walked.continuations, List.mem_eraseDups, List.mem_filterMap]
  constructor
  · rintro ⟨⟨exit, target⟩, listed, goes⟩
    obtain ⟨node, inside, suspends, rfl⟩ := walked.mem_exits.mp listed
    unfold targetOf at goes
    split at goes
    · cases goes
    · rename_i e _ successors
      cases goes
      exact ⟨e, ⟨_, inside, suspends, by rw [successors]; rfl⟩, rfl⟩
  · rintro ⟨e, ⟨⟨exit, node⟩, inside, suspends, first⟩, rfl⟩
    refine ⟨_, walked.mem_exits.mpr ⟨node, inside, suspends, rfl⟩, ?_⟩
    obtain ⟨behind, successors⟩ := List.head?_eq_some_iff.mp first
    have successors : node.successors = e :: behind := successors
    simp only [targetOf, successors, Target.region?]

theorem mem_exit_nodes (walked : Walked graph starts region found) (exit : NodeId) :
    exit ∈ region.exits.map Prod.fst ↔ exit ∈ region.nodes ∧
      ∃ node, graph.node? exit = some node ∧ node.isSuspension = true := by
  rw [List.mem_map, walked.nodes_eq]
  constructor
  · rintro ⟨⟨_, target⟩, listed, rfl⟩
    obtain ⟨node, inside, suspends, _⟩ := walked.mem_exits.mp listed
    obtain ⟨member, present⟩ := Graph.mem_members.mp inside
    exact ⟨member, node, present, suspends⟩
  · rintro ⟨member, node, present, suspends⟩
    have inside := Graph.mem_members.mpr ⟨member, present⟩
    exact ⟨_, walked.mem_exits.mpr ⟨node, inside, suspends, rfl⟩, rfl⟩

theorem target_eq (walked : Walked graph starts region found) {exit : NodeId} {target : Target}
    (listed : (exit, target) ∈ region.exits) :
    ∃ node, graph.node? exit = some node ∧ target = targetOf starts node := by
  obtain ⟨node, inside, _, same⟩ := walked.mem_exits.mp listed
  exact ⟨node, (Graph.mem_members.mp inside).2, same⟩

theorem continuations_once (walked : Walked graph starts region found) :
    region.continuations.Nodup ∧
      ∀ id, id ∈ region.continuations ↔ ∃ exit, (exit, .region id) ∈ region.exits := by
  rw [walked.continuations]
  refine ⟨nodup_eraseDups _, fun id => ?_⟩
  rw [List.mem_eraseDups, List.mem_filterMap]
  constructor
  · rintro ⟨⟨exit, target⟩, listed, goes⟩
    exact ⟨exit, Target.region?_eq_some.mp goes ▸ listed⟩
  · rintro ⟨exit, listed⟩
    exact ⟨_, listed, rfl⟩

end Walked

/-- The regions that were made so far of the starts that are known. Each start but the first one was
met in a region before its own. -/
structure Made (graph : Graph) (head : NodeId) (done : List Region) (starts : List NodeId) : Prop
    where
  distinct : starts.Nodup
  first : starts.head? = some head
  bound : done.length ≤ starts.length
  region : ∀ (id : Nat) region, done[id]? = some region → region.id = id ∧
    starts[id]? = some region.start ∧ ∃ found, Walked graph starts region found
  origin : ∀ (id : Nat) start, starts[id + 1]? = some start → ∃ before region, before ≤ id ∧
    done[before]? = some region ∧ id + 1 ∈ region.continuations

namespace Made

theorem step (made : Made graph head done starts) {start : NodeId}
    (next : starts[done.length]? = some start)
    (walked : graph.explore onward [] [start] = .ok found)
    (grows : Grows starts more (Continues (graph.members found))) :
    Made graph head (done ++ [ofMembers done.length start (exitsOf more (graph.members found))
      (graph.members found)]) more := by
  obtain ⟨below, _⟩ := List.getElem?_eq_some_iff.mp next
  have longer : starts.length ≤ more.length := grows.kept.length_le
  have same : ∀ {id : Nat}, id < starts.length → more[id]? = starts[id]? := by
    intro id inside
    obtain ⟨behind, rfl⟩ := grows.kept
    exact List.getElem?_append_left inside
  have last : Walked graph more (ofMembers done.length start
      (exitsOf more (graph.members found)) (graph.members found)) found :=
    ⟨walked, rfl, rfl, rfl, rfl, rfl, fun x continues => (grows.mem x).mpr (.inr continues)⟩
  refine ⟨grows.distinct made.distinct, ?_, ?_, ?_, ?_⟩
  · rw [List.head?_eq_getElem?, same (Nat.zero_lt_of_lt below), ← List.head?_eq_getElem?, made.first]
  · rw [List.length_append, List.length_singleton]
    omega
  · intro id region present
    by_cases early : id < done.length
    · rw [List.getElem?_append_left early] at present
      obtain ⟨number, here, found', walked'⟩ := made.region id region present
      refine ⟨number, ?_, found', walked'.extend grows.kept⟩
      rw [same (Nat.lt_of_lt_of_le early made.bound), here]
    · have inside := (List.getElem?_eq_some_iff.mp present).1
      rw [List.length_append, List.length_singleton] at inside
      obtain rfl : id = done.length := by omega
      rw [List.getElem?_concat_length, Option.some.injEq] at present
      subst present
      exact ⟨rfl, (same below).trans next, found, last⟩
  · intro id other place
    -- A start that was not known before is a continuation of the new region.
    by_cases old : id + 1 < starts.length
    · rw [same old] at place
      obtain ⟨before, region, order, present, continues⟩ := made.origin id other place
      have inside := (List.getElem?_eq_some_iff.mp present).1
      exact ⟨before, region, order, (List.getElem?_append_left inside).trans present, continues⟩
    · obtain ⟨within, here⟩ := List.getElem?_eq_some_iff.mp place
      have number : more.idxOf other = id + 1 := by
        rw [← here, (grows.distinct made.distinct).idxOf_getElem]
      have fresh : other ∉ starts := by
        intro known
        have earlier := List.idxOf_lt_length_iff.mpr known
        rw [idxOf_extend grows.kept known] at number
        omega
      rcases (grows.mem other).mp (here ▸ List.getElem_mem within) with known | continues
      · exact absurd known fresh
      · refine ⟨done.length, _, by omega, List.getElem?_concat_length, ?_⟩
        exact last.mem_continuations.mpr ⟨other, continues, number.symm⟩

theorem all_starts {P : NodeId → Prop} (made : Made graph head done starts) (first : P head)
    (closed : ∀ region ∈ done, P region.start → ∀ found, Walked graph starts region found →
      ∀ next, Continues (graph.members found) next → P next) : ∀ e ∈ starts, P e := by
  -- By induction on the place of a start, because it was met in a region that stands before it.
  have each : ∀ (id : Nat) (e : NodeId), starts[id]? = some e → P e := by
    intro id
    induction id using Nat.strongRecOn with
    | _ id ih =>
        intro e place
        cases id with
        | zero =>
            rw [← List.head?_eq_getElem?, made.first, Option.some.injEq] at place
            exact place ▸ first
        | succ id =>
            obtain ⟨before, region, order, present, continues⟩ := made.origin id e place
            obtain ⟨_, here, found, walked⟩ := made.region before region present
            obtain ⟨next, further, number⟩ := walked.mem_continuations.mp continues
            have same : next = e := by
              have known := List.getElem_idxOf (List.idxOf_lt_length_iff.mpr (walked.known next further))
              have there := (List.getElem?_eq_some_iff.mp place).2
              simp only [← number] at known
              exact known.symm.trans there
            have holds := ih before (by omega) region.start here
            exact same ▸ closed region (List.mem_of_getElem? present) holds found walked next further
  intro e member
  obtain ⟨id, inside, rfl⟩ := List.getElem_of_mem member
  exact each id _ (List.getElem?_eq_getElem inside)

theorem walked_of_mem (made : Made graph head done starts) (member : region ∈ done) :
    ∃ found, Walked graph starts region found := by
  obtain ⟨id, present⟩ := List.getElem?_of_mem member
  exact (made.region id region present).2.2

theorem of_start (made : Made graph head regions starts) (all : regions.length = starts.length)
    {start : NodeId} (known : start ∈ starts) :
    ∃ region, regions[starts.idxOf start]? = some region ∧ region.start = start := by
  have below := List.idxOf_lt_length_iff.mpr known
  have present := List.getElem?_eq_getElem (all ▸ below)
  refine ⟨_, present, ?_⟩
  have here := (made.region _ _ present).2.1
  rw [List.getElem?_eq_getElem below, List.getElem_idxOf, Option.some.injEq] at here
  exact here.symm

theorem mem_zipIdx_iff (made : Made graph head regions starts)
    (all : regions.length = starts.length) (start : NodeId) (id : Nat) :
    (start, id) ∈ starts.zipIdx ↔ ∃ region, regions[id]? = some region ∧ region.start = start := by
  rw [List.mk_mem_zipIdx_iff_getElem?]
  constructor
  · intro here
    have below := (List.getElem?_eq_some_iff.mp here).1
    have present := List.getElem?_eq_getElem (all ▸ below)
    exact ⟨_, present, Option.some.inj ((made.region id _ present).2.1.symm.trans here)⟩
  · rintro ⟨region, present, rfl⟩
    exact (made.region id region present).2.1

theorem continues_in (made : Made graph head regions starts)
    (all : regions.length = starts.length) (member : region ∈ regions) {exit : NodeId}
    {target : Target} (listed : (exit, target) ∈ region.exits) :
    ∃ node, graph.node? exit = some node ∧ (node.successors = [] ∧ target = .complete ∨
      ∃ (id : Nat) (next : Region), regions[id]? = some next ∧ node.successors = [next.start] ∧
        target = .region id) := by
  obtain ⟨found, walked⟩ := made.walked_of_mem member
  obtain ⟨node, inside, suspends, rfl⟩ := walked.mem_exits.mp listed
  refine ⟨node, (Graph.mem_members.mp inside).2, ?_⟩
  rcases walked.successors inside suspends with last | ⟨next, successors⟩
  · exact .inl ⟨last, by rw [targetOf, last]⟩
  · have known := walked.known next ⟨_, inside, suspends, by rw [successors]; rfl⟩
    obtain ⟨region', present, same⟩ := made.of_start all known
    exact .inr ⟨_, region', present, same ▸ successors, by rw [targetOf, successors]⟩

theorem withLiveness (made : Made graph head regions starts) :
    Made graph head (Region.withLiveness regions).1 starts := by
  have same (id : Nat) : (Region.withLiveness regions).1[id]? = (regions[id]?).map fun region =>
      { region with
        liveIn := (liveSets regions).1.getD region.id .empty
        liveOut := liveOutOf (liveSets regions).1 region } := by
    rw [Region.withLiveness, List.getElem?_map]
  refine ⟨made.distinct, made.first, ?_, ?_, ?_⟩
  · rw [Region.withLiveness, List.length_map]
    exact made.bound
  · intro id region present
    rw [same] at present
    obtain ⟨before, there, rfl⟩ := Option.map_eq_some_iff.mp present
    obtain ⟨number, here, found, walked⟩ := made.region id before there
    exact ⟨number, here, found, walked.withLiveness _ _⟩
  · intro id start place
    obtain ⟨before, region, order, present, continues⟩ := made.origin id start place
    refine ⟨before, _, order, (same before).trans (congrArg _ present), continues⟩

end Made

/-- The queue always holds the starts behind those that were walked, and the map numbers them all. -/
theorem discoverFrom_made {frontier : Frontier} {numbers : List (NodeId × RegionId)}
    (listed : frontier = Frontier.listing starts done.length)
    (made : Made graph head done starts)
    (discovers : discoverFrom graph done frontier = .ok (regions, numbers)) :
    ∃ starts, numbers = starts.zipIdx ∧ regions.length = starts.length ∧
      Made graph head regions starts := by
  fun_induction discoverFrom graph done frontier generalizing starts with
  | case1 done frontier waiting =>
      cases discovers
      subst listed
      have all : starts.length ≤ regions.length := List.drop_eq_nil_iff.mp waiting
      exact ⟨starts, rfl, Nat.le_antisymm made.bound all, made⟩
  | case2 => cases discovers
  | case3 done frontier start rest waiting ids walked members found =>
      rename_i ih
      subst listed
      change starts.drop done.length = start :: rest at waiting
      have inside : done.length < starts.length := by
        apply Nat.lt_of_not_le
        intro beyond
        rw [List.drop_eq_nil_of_le beyond] at waiting
        cases waiting
      have next : starts[done.length]? = some start := by
        rw [← List.head?_drop, waiting]
        rfl
      have behind : rest = starts.drop (done.length + 1) := by
        rw [← List.tail_drop, waiting]
        rfl
      obtain ⟨more, exits, grows⟩ := Frontier.exits_listing inside members
      have same : found = (exitsOf more members, Frontier.listing more (done.length + 1)) := by
        rw [← exits]
        simp only [found, behind]
        rfl
      rw [same] at ih discovers
      refine ih ?_ (made.step next walked grows) discovers
      rw [List.length_append, List.length_singleton]

/-- Discovery numbers the regions in the order of their starts. -/
theorem discover_made {numbers : List (NodeId × RegionId)}
    (discovers : discover graph head = .ok (regions, numbers)) :
    ∃ starts, numbers = starts.zipIdx ∧ regions.length = starts.length ∧
      Made graph head regions starts := by
  have initial : Made graph head [] [head] := by
    refine ⟨List.nodup_singleton _, rfl, Nat.zero_le _, ?_, ?_⟩
    · intro id region impossible
      cases impossible
    · intro id start impossible
      cases impossible
  exact discoverFrom_made rfl initial discovers

theorem discoverFrom_ok {P : NodeId → Prop} {frontier : Frontier}
    (goes : ∀ start, P start → ∃ found, graph.explore onward [] [start] = .ok found ∧
      ∀ next, Continues (graph.members found) next → P next)
    (waiting : ∀ start ∈ frontier.pending, P start) :
    ∃ regions numbers, discoverFrom graph done frontier = .ok (regions, numbers) := by
  fun_induction discoverFrom graph done frontier with
  | case1 done frontier => exact ⟨done, frontier.numbers, rfl⟩
  | case2 done frontier start rest first failure failed =>
      obtain ⟨found, walked, _⟩ := goes start (waiting start (by simp [first]))
      cases failed.symm.trans walked
  | case3 done frontier start rest first ids walked members found =>
      rename_i ih
      obtain ⟨found', walked', further⟩ := goes start (waiting start (by simp [first]))
      obtain rfl : ids = found' := Except.ok.inj (walked.symm.trans walked')
      apply ih
      intro next waits
      rcases Frontier.mem_pending_exits waits with old | continues
      · exact waiting next (by rw [first]; exact List.mem_cons_of_mem _ old)
      · exact further next continues

end Region

section Analysis

variable {body : Body} {settings : Settings} {analysis : Analysis}

theorem Body.analyze_ok (analysed : body.analyze settings = .ok analysis) :
    ∃ head regions, body.graph.head = some head ∧
      Region.discover body.graph head = .ok (regions, analysis.numbers) ∧
      (analysis.regions, analysis.rounds) = Region.withLiveness regions := by
  unfold Body.analyze at analysed
  split at analysed
  · cases analysed
  · rename_i head start
    obtain ⟨⟨regions, numbers⟩, discovers, analysed⟩ := ok_bind analysed
    cases analysed
    exact ⟨head, regions, start, discovers, rfl⟩

theorem Body.analyze_made (analysed : body.analyze settings = .ok analysis) :
    ∃ head, body.graph.head = some head ∧ analysis.numbers = analysis.starts.zipIdx ∧
      analysis.regions.length = analysis.starts.length ∧
      Region.Made body.graph head analysis.regions analysis.starts := by
  obtain ⟨head, regions, start, discovers, settled⟩ := Body.analyze_ok analysed
  obtain ⟨starts, numbers, length, made⟩ := Region.discover_made discovers
  have order : analysis.starts = starts := by
    rw [Analysis.starts, numbers, List.zipIdx_map_fst]
  have regions_eq : analysis.regions = (Region.withLiveness regions).1 := congrArg Prod.fst settled
  rw [order, regions_eq]
  refine ⟨head, start, numbers, ?_, made.withLiveness⟩
  rw [Region.withLiveness, List.length_map, length]

/-- Every region of an analysis was walked in the graph of the body. -/
theorem Body.analyze_walked (analysed : body.analyze settings = .ok analysis) {id : RegionId}
    {region : Region} (present : analysis.region? id = some region) :
    ∃ found, region.Walked body.graph analysis.starts found := by
  obtain ⟨_, _, _, _, made⟩ := Body.analyze_made analysed
  exact (made.region id region present).2.2

end Analysis
end Resumable
