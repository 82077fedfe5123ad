import Resumable.Proofs.Region.Liveness
import Resumable.Proofs.Route.Shape

/-! What a graph demands from before a node: the variables that some way from there reads before any
node on it declares them. On a route these are the variables that it needs. -/

namespace Resumable

namespace Graph

def DeclaredAmong (graph : Graph) (ids : List NodeId) (var : VarId) : Prop :=
  ∃ id ∈ ids, ∃ node, graph.node? id = some node ∧ node.declares = some var

/-- A way that comes to a node that reads a variable, while no node before that one declares it. The
edges behind suspensions are edges like any other. -/
def Demands (graph : Graph) (start : NodeId) (var : VarId) : Prop :=
  ∃ last ids node, graph.Path start last ids ∧ graph.node? last = some node ∧ var ∈ node.reads ∧
    ¬ graph.DeclaredAmong ids.dropLast var

variable {graph : Graph} {id next last start : NodeId} {ids : List NodeId} {var : VarId}

theorem declaredAmong_cons : graph.DeclaredAmong (id :: ids) var ↔
    (∃ node, graph.node? id = some node ∧ node.declares = some var) ∨
      graph.DeclaredAmong ids var := by
  simp [DeclaredAmong]

theorem DeclaredAmong.mono {more : List NodeId} (declared : graph.DeclaredAmong ids var)
    (inside : ids ⊆ more) : graph.DeclaredAmong more var := by
  obtain ⟨id, member, here⟩ := declared
  exact ⟨id, inside member, here⟩

theorem Path.ne_nil (path : graph.Path start last ids) : ids ≠ [] :=
  List.ne_nil_of_mem path.first_mem

theorem Path.last_mem (path : graph.Path start last ids) : last ∈ ids := by
  induction path with
  | here => exact List.mem_cons_self
  | step _ _ ih => exact List.mem_cons_of_mem _ ih

theorem Path.snoc (path : graph.Path start last ids) (edge : next ∈ graph.successors last) :
    graph.Path start next (ids ++ [next]) := by
  induction path with
  | here id => exact .step edge (.here next)
  | step first _ ih => exact .step first (ih edge)

theorem dropLast_step (path : graph.Path next last ids) (id : NodeId) :
    (id :: ids).dropLast = id :: ids.dropLast :=
  List.dropLast_cons_of_ne_nil path.ne_nil

theorem Demands.before (demands : graph.Demands last var) (path : graph.Path start last ids)
    (unmade : ¬ graph.DeclaredAmong ids.dropLast var) : graph.Demands start var := by
  induction path with
  | here => exact demands
  | step edge further ih =>
      rw [dropLast_step further, declaredAmong_cons, not_or] at unmade
      obtain ⟨end_, way, node, path, present, reads, unmade'⟩ := ih demands unmade.2
      refine ⟨end_, _, node, .step edge path, present, reads, ?_⟩
      rw [dropLast_step path, declaredAmong_cons, not_or]
      exact ⟨unmade.1, unmade'⟩

end Graph

namespace Route

variable {graph : Graph} {before behind : Context} {route : Route} {start follower : NodeId}
  {var : VarId}

theorem Laid.at_ {next : Option NodeId} (laid : Laid graph next route) {site : Site}
    (inside : site ∈ route.sites) : ∃ kind successors, site.At graph kind successors := by
  induction route generalizing next with
  | stop => cases inside
  | plain other _ rest ih | suspend other _ rest ih =>
      rcases List.mem_cons.mp inside with rfl | later
      · exact ⟨_, _, laid.1⟩
      · exact ih laid.2 later
  | branch other _ thenRoute elseRoute rest thenIH elseIH ih =>
      obtain ⟨_, _, _, _, _, _, fork, inThen, inElse, last⟩ := laid
      simp only [sites, List.mem_cons, List.mem_append] at inside
      rcases inside with rfl | inside | inside | inside
      · exact ⟨_, _, fork⟩
      · exact thenIH inThen inside
      · exact elseIH inElse inside
      · exact ih last inside

theorem Laid.makes_of_declared {next : Option NodeId} (laid : Laid graph next route)
    {ids : List NodeId} (inside : ids ⊆ route.ids) (declared : graph.DeclaredAmong ids var) :
    var ∈ route.makes := by
  obtain ⟨id, member, node, present, declares⟩ := declared
  obtain ⟨site, listed, rfl⟩ := List.mem_map.mp (inside member)
  obtain ⟨_, _, node', present', is⟩ := laid.at_ listed
  obtain rfl := Option.some.inj (present.symm.trans present')
  exact mem_makes.mpr ⟨site, listed, is.declares.symm.trans declares⟩

theorem Laid.path_to (laid : Laid graph none route) (starts : route.first? = some start)
    {id : NodeId} (member : id ∈ route.ids) :
    ∃ ids, graph.Path start id ids ∧ ids ⊆ route.ids := by
  have stays : ∀ id, (∃ ids, graph.Path start id ids ∧ ids ⊆ route.ids) →
      ∀ other ∈ graph.successors id, ∃ ids, graph.Path start other ids ∧ ids ⊆ route.ids := by
    intro id ⟨ids, path, inside⟩ other edge
    rcases laid.forward.next (inside path.last_mem) edge with later | impossible
    · exact ⟨_, path.snoc edge, List.append_subset.mpr ⟨inside, by simpa using later⟩⟩
    · cases impossible
  refine (laid.reached stays fun first follows => ?_).1 id member
  rw [starts, Option.some_or, Option.some.injEq] at follows
  subst follows
  exact ⟨_, .here _, by simpa using mem_ids_of_first? starts⟩

theorem Needs.demanded (needs : route.Needs var) (laid : Laid graph none route)
    (starts : route.first? = some start) : graph.Demands start var := by
  obtain ⟨reader, inside, reads⟩ := mem_mentions.mp needs.1
  obtain ⟨_, _, node, present, is⟩ := laid.at_ inside
  obtain ⟨ids, path, within⟩ := laid.path_to starts (List.mem_map_of_mem inside)
  refine ⟨reader.id, ids, node, path, present, is.reads ▸ reads, fun declared => ?_⟩
  exact needs.2 (laid.makes_of_declared within (declared.mono (List.dropLast_subset ids)))

theorem Leads.first (leads : Leads before route behind) (laid : Laid graph none route)
    (starts : route.first? = some start) : ∃ site ∈ route.sites, site.id = start ∧
      site.Within before ∧ ∃ kind successors, site.At graph kind successors := by
  cases route with
  | stop => cases starts
  | plain site _ rest | suspend site _ rest =>
      exact ⟨site, List.mem_cons_self, Option.some.inj starts, leads.1, _, _, laid.1⟩
  | branch site _ thenRoute elseRoute rest =>
      obtain ⟨_, _, _, _, _, _, fork, _⟩ := laid
      exact ⟨site, List.mem_cons_self, Option.some.inj starts, leads.1, _, _, fork⟩

/-- Wherever an edge leads from the first node, a part of the route leads on from there. All that is
known then was known before, unless the first node has declared it. -/
theorem Leads.next (leads : Leads before route behind) (laid : Laid graph none route)
    (starts : route.first? = some start) (edge : follower ∈ graph.successors start) :
    ∃ tail ∈ route.tails, tail.first? = some follower ∧ ∃ middle, Leads middle tail behind ∧
      ∀ var ∈ middle.known, var ∈ before.known ∨
        ∃ node, graph.node? start = some node ∧ node.declares = some var := by
  have known : ∀ {site : Site} {kind : NodeKind} {successors : List NodeId},
      site.At graph kind successors → site.Within before → ∀ var ∈ site.after.known,
        var ∈ before.known ∨ ∃ node, graph.node? site.id = some node ∧ node.declares = some var := by
    intro site kind successors ⟨node, present, is⟩ within var here
    rcases List.mem_append.mp here with made | old
    · exact .inr ⟨node, present, is.declares.trans (Option.mem_toList.mp made)⟩
    · exact .inl (within.known var old)
  cases route with
  | stop => cases starts
  | plain site _ rest | suspend site _ rest =>
      cases starts
      rw [laid.1.successors_eq, Option.or_none, Option.mem_toList] at edge
      have some_ : rest ≠ .stop := fun empty => by rw [empty] at edge; cases edge
      exact ⟨rest, List.mem_cons_of_mem _ (self_mem_tails some_), edge, site.after, leads.2,
        known laid.1 leads.1⟩
  | branch site _ thenRoute elseRoute rest =>
      cases starts
      obtain ⟨merge, thenHead, elseHead, meets, inThen, inElse, fork, _⟩ := laid
      obtain ⟨within, size, first, second, last⟩ := leads
      have side : ∀ {part : Route} {head : NodeId}, part.first? = some head →
          Leads site.after part ⟨site.known, size⟩ → (part ++ rest).first? = some head ∧
            ∃ middle, Leads middle (part ++ rest) behind ∧ ∀ var ∈ middle.known,
              var ∈ before.known ∨
                ∃ node, graph.node? site.id = some node ∧ node.declares = some var := by
        intro part head heads leadsOn
        refine ⟨?_, site.after, leadsOn.append last, known fork within⟩
        rw [first?_append, heads, Option.some_or]
      have tail : ∀ {part : Route} {head : NodeId}, part.first? = some head →
          part ++ rest ∈ part.tails.map (· ++ rest) := by
        intro part head heads
        have some_ : part ≠ .stop := fun empty => by rw [empty] at heads; cases heads
        exact List.mem_map_of_mem (self_mem_tails some_)
      rw [fork.successors_eq, List.mem_pair] at edge
      rcases edge with rfl | rfl
      · exact ⟨thenRoute ++ rest, List.mem_cons_of_mem _ (List.mem_append_left _ (tail inThen)),
          side inThen first⟩
      · exact ⟨elseRoute ++ rest, List.mem_cons_of_mem _ (List.mem_append_right _
          (List.mem_append_left _ (tail inElse))), side inElse second⟩

/-- Along a way that does not declare it a variable stays unknown until it is known at the start: the
induction is on the way, with a part of the route for each node that it comes to. -/
theorem Leads.known_of_path {last : NodeId} {ids : List NodeId} {node : Node}
    (leads : Leads before route behind) (laid : Laid graph none route)
    (starts : route.first? = some start) (path : graph.Path start last ids)
    (present : graph.node? last = some node) (reads : var ∈ node.reads)
    (unmade : ¬ graph.DeclaredAmong ids.dropLast var) :
    var ∈ before.known ∧ var ∈ route.mentions := by
  induction path generalizing route before with
  | here =>
      obtain ⟨site, inside, rfl, within, _, _, node', present', is⟩ := leads.first laid starts
      obtain rfl := Option.some.inj (present.symm.trans present')
      have listed : var ∈ site.reads := is.reads ▸ reads
      exact ⟨within.known var (within.reads var listed), mem_mentions.mpr ⟨site, inside, listed⟩⟩
  | step edge further ih =>
      rw [Graph.dropLast_step further, Graph.declaredAmong_cons, not_or] at unmade
      obtain ⟨tail, inside, starts', middle, leadsOn, known⟩ := leads.next laid starts edge
      obtain ⟨here, mentioned⟩ :=
        ih leadsOn (laid.of_mem_tails inside) starts' present unmade.2
      refine ⟨(known var here).resolve_right unmade.1, ?_⟩
      obtain ⟨site, listed, reads'⟩ := mem_mentions.mp mentioned
      exact mem_mentions.mpr ⟨site, (sites_sublist_of_mem_tails inside).subset listed, reads'⟩

/-- A route needs what its graph demands at the start of it, and nothing else. -/
theorem demands_iff (leads : Leads before route behind) (sound : before.Sound)
    (laid : Laid graph none route) (starts : route.first? = some start) :
    graph.Demands start var ↔ route.Needs var := by
  constructor
  · rintro ⟨last, ids, node, path, present, reads, unmade⟩
    obtain ⟨known, mentioned⟩ := leads.known_of_path laid starts path present reads unmade
    exact ⟨mentioned, not_makes leads sound known⟩
  · exact fun needs => needs.demanded laid starts

theorem Leads.exactly (leads : Leads before route behind) (starts : route.first? = some start) :
    ∃ site ∈ route.sites, Leads ⟨site.known, site.first⟩ route behind := by
  have own : ∀ {site : Site}, site.Within before → site.Within ⟨site.known, site.first⟩ :=
    fun within => { within with known := fun _ here => here, size := Nat.le_refl _ }
  cases route with
  | stop => cases starts
  | plain site _ _ | suspend site _ _ | branch site _ _ _ _ =>
      exact ⟨site, List.mem_cons_self, own leads.1, leads.2⟩

theorem Leads.known_first (leads : Leads before route behind) (starts : route.first? = some start) :
    ∃ site ∈ route.sites, ∀ var, route.Needs var → var ∈ site.known := by
  obtain ⟨site, inside, exactly⟩ := leads.exactly starts
  exact ⟨site, inside, fun _ needs => needs.known exactly⟩

end Route
end Resumable
