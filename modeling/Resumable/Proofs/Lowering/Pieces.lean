import Resumable.Lowering.Body
import Resumable.Proofs.Lowering.Fits
import Resumable.Proofs.Route.Flow
import Resumable.Proofs.Route.Laid

/-! Pieces of graph that lowering makes, each with the route that lies there. -/

namespace Resumable

open Symbols

namespace Symbols

variable {scope : Nat} {before after : Symbols} {name? localName? : Option String}

def recount (symbols : Symbols) (uid : Nat) : Symbols :=
  ⟨symbols.scopes, { symbols.variables with nextUid := uid }⟩

theorem Sound.recount (sound : before.Sound) (uid : Nat) : (before.recount uid).Sound :=
  ⟨sound.rooted, sound.inhabited, sound.entered, sound.ahead, sound.numbered, sound.packed,
    sound.framed, sound.named, sound.declared⟩

theorem Extends.recount (extends_ : Extends scope before after) (uid : Nat) :
    Extends scope before (after.recount uid) :=
  ⟨extends_.sizes, extends_.scopes, extends_.count, extends_.kept, extends_.starts, extends_.frame⟩

theorem Open.recount (open_ : Open scope before) (uid : Nat) : Open scope (before.recount uid) :=
  ⟨open_.inside, open_.room, open_.apart⟩

theorem Declared.recount {name : String} {type : DataType} {mutable : Bool} {info : Variable}
    (declared : Declared scope name type mutable before info after) (uid : Nat) :
    Declared scope name type mutable before info (after.recount uid) where
  sound := declared.sound.recount uid
  extends_ := declared.extends_.recount uid
  fresh := declared.fresh
  new := declared.new
  id := declared.id
  count := declared.count
  found := declared.found
  type := declared.type
  mutable := declared.mutable
  resolve? := declared.resolve?
  declaredHere? := declared.declaredHere?
  visible := declared.visible
  open_ := fun open_ => (declared.open_ open_).recount uid

theorem Grown.recount (grown : Grown scope before after name? localName?) (uid : Nat) :
    Grown scope before (after.recount uid) name? localName? := by
  cases name? <;> cases localName?
  · exact ⟨grown.1.recount uid, grown.2.recount uid⟩
  · exact grown.elim
  · exact grown.elim
  · obtain ⟨type, mutable, info, same, declared⟩ := grown
    exact ⟨type, mutable, info, same, declared.recount uid⟩

end Symbols

def Symbols.context (symbols : Symbols) (scope : ScopeId) : Context :=
  ⟨symbols.scopes.visible scope, symbols.variables.size⟩

theorem Symbols.Sound.context {symbols : Symbols} (sound : symbols.Sound) (scope : ScopeId) :
    (symbols.context scope).Sound :=
  fun _ seen => lt_of_mem_visible sound seen

namespace Lower

/-- What lowering one piece does to the graph: the nodes there were stay, and a route lies in the
new ones from the first node of the piece to the last. -/
structure Lays (scope : ScopeId) (before after : Draft) (piece : Piece) (route : Route) : Prop where
  count : after.graph.size = before.graph.size + route.ids.length
  old : ∀ id : Nat, id < before.graph.size → after.graph.node? id = before.graph.node? id
  entry : route.first? = some piece.first
  last : route.last? = some piece.last
  distinct : route.ids.Nodup
  window : ∀ id : Nat, id ∈ route.ids → before.graph.size ≤ id ∧ id < after.graph.size
  laid : Route.Laid after.graph none route
  leads : Route.Leads (before.symbols.context scope) route (after.symbols.context scope)
  fits : route.Fits after.symbols
  makes : Making after.symbols before.symbols.variables.size after.symbols.variables.size
    route.declarations

variable {before middle after : Draft} {scope : Nat}

theorem Lays.size {piece : Piece} {route : Route} (lays : Lays scope before after piece route) :
    before.graph.size ≤ after.graph.size :=
  lays.count ▸ Nat.le_add_right _ _

theorem addNode_ok {kind : NodeKind} {location : Location} {reads : List VarId}
    {declares : Option VarId} {id : NodeId}
    (done : addNode kind scope location reads declares before = .ok (id, after)) :
    ∃ node uid, node.id = before.graph.size ∧ node.kind = kind ∧ node.scope = scope ∧
      node.reads = reads ∧ node.declares = declares ∧ node.successors = [] ∧
      id = before.graph.size ∧ after.graph = before.graph.push node ∧
      after.symbols = before.symbols.recount uid := by
  cases done
  exact ⟨_, before.symbols.variables.nextUid + 1, rfl, rfl, rfl, rfl, rfl, rfl, rfl, rfl, rfl⟩

theorem addNode_site {kind : NodeKind} {location : Location} {reads : List VarId}
    {declares : Option VarId} {id : NodeId}
    (done : addNode kind scope location reads declares before = .ok (id, after))
    (known : List VarId) (first last : Nat) :
    Site.At ⟨id, scope, reads, declares, known, first, last⟩ after.graph kind [] ∧
      id = before.graph.size ∧ after.graph.size = before.graph.size + 1 ∧
      (∀ other : Nat, other < before.graph.size →
        after.graph.node? other = before.graph.node? other) ∧
      ∃ uid, after.symbols = before.symbols.recount uid := by
  obtain ⟨node, uid, number, kind_, scope_, reads_, declares_, successors, same, graph, symbols⟩ :=
    addNode_ok done
  refine ⟨⟨node, ?_, ?_⟩, same, ?_, ?_, uid, symbols⟩
  · rw [graph, Graph.node?_push]
    exact if_pos same
  · exact ⟨number.trans same.symm, kind_, scope_, reads_, declares_, successors⟩
  · rw [graph, Graph.size_push]
  · intro other below
    rw [graph, Graph.node?_push, if_neg (Nat.ne_of_lt below)]

theorem connect_ok {source target : NodeId}
    (done : connect source target before = .ok ((), after)) :
    before.graph.connect source target = .ok after.graph ∧ after.symbols = before.symbols := by
  unfold connect at done
  cases connected : before.graph.connect source target with
  | error => simp [connected] at done
  | ok graph =>
      simp only [connected, Except.ok.injEq, Prod.mk.injEq] at done
      obtain ⟨_, rfl⟩ := done
      exact ⟨rfl, rfl⟩

theorem connect_node? {graph graph' : Graph} {source target : NodeId}
    (connected : graph.connect source target = .ok graph') {id : NodeId} (apart : id ≠ source) :
    graph'.node? id = graph.node? id := by
  rw [Graph.node?_connect connected]
  cases graph.node? id <;> simp [apart]

theorem site_fits {known : List VarId} {id : NodeId} {reads : List VarId} {declares : Option VarId}
    {first last : Nat} {symbols symbols' : Symbols} {scope' : ScopeId} (sound : symbols.Sound)
    (sound' : symbols'.Sound) (open_ : Open scope symbols)
    (extends_ : Extends scope' symbols symbols') (same : known = symbols.scopes.visible scope) :
    Site.Fits symbols' ⟨id, scope, reads, declares, known, first, last⟩ := by
  subst same
  have here : Site.Fits symbols
      ⟨id, scope, reads, declares, symbols.scopes.visible scope, first, last⟩ :=
    ⟨open_.inside, fun _ seen => seen, open_.apart⟩
  exact here.extend extends_ sound sound'

/-- A node that was added last, as a site of the text that was lowered before it. -/
structure Added (scope : ScopeId) (before after : Draft) (site : Site) (kind : NodeKind) :
    Prop where
  id : site.id = before.graph.size
  size : after.graph.size = before.graph.size + 1
  old : ∀ id : Nat, id < before.graph.size → after.graph.node? id = before.graph.node? id
  at_ : site.At after.graph kind []
  within : site.Within (before.symbols.context scope)
  behind : Route.Leads site.after .stop (after.symbols.context scope)
  fits : site.Fits after.symbols

theorem Added.lays {site : Site} {kind : NodeKind} {route : Route}
    (added : Added scope before after site kind) (single : route.sites = [site])
    (entry : route.first? = some site.id) (last : route.last? = some site.id)
    (laid : Route.Laid after.graph none route)
    (leads : Route.Leads (before.symbols.context scope) route (after.symbols.context scope))
    (fits : route.Fits after.symbols)
    (makes : Making after.symbols site.first site.last route.declarations) :
    Lays scope before after ⟨site.id, site.id⟩ route where
  count := by
    rw [added.size, Route.ids, single]
    rfl
  old := added.old
  entry := entry
  last := last
  distinct := by
    rw [Route.ids, single]
    simp
  window := by
    intro id member
    have same : (id : Nat) = before.graph.size := by
      rw [Route.ids, single] at member
      exact (List.mem_singleton.mp member).trans added.id
    have size := added.size
    omega
  laid := laid
  leads := leads
  fits := fits
  makes := makes.widen added.within.size added.behind.2

theorem Added.plain {site : Site} {s : Stmt} (added : Added scope before after site (.statement s))
    (fits : (Route.plain site (some s) .stop).Fits after.symbols) :
    Lays scope before after ⟨site.id, site.id⟩ (.plain site (some s) .stop) := by
  refine added.lays rfl rfl rfl ⟨added.at_, trivial⟩ ⟨added.within, added.behind⟩ fits ?_
  rw [Route.declarations, Route.declarations, List.append_nil]
  exact fits.2.1.makes

theorem Added.suspend {site : Site} {payload : Expr}
    (added : Added scope before after site (.suspend payload))
    (fits : (Route.suspend site payload .stop).Fits after.symbols) :
    Lays scope before after ⟨site.id, site.id⟩ (.suspend site payload .stop) :=
  added.lays rfl rfl rfl ⟨added.at_, trivial⟩ ⟨added.within, added.behind⟩ fits
    (.nil _ added.within.grows)

theorem added_of_addNode {kind : NodeKind} {location : Location} {reads : List VarId}
    {declares : Option VarId} {id : NodeId} (sound : before.symbols.Sound)
    (open_ : Open scope before.symbols) (sound' : middle.symbols.Sound)
    (extends_ : Extends scope before.symbols middle.symbols) (graph : middle.graph = before.graph)
    (seen : ∀ var ∈ middle.symbols.scopes.visible scope,
      var ∈ declares.toList ++ before.symbols.scopes.visible scope)
    (fresh : ∀ var : Nat, var ∈ declares →
      before.symbols.variables.size ≤ var ∧ var < middle.symbols.variables.size)
    (visible : ∀ var ∈ reads, var ∈ before.symbols.scopes.visible scope)
    (done : addNode kind scope location reads declares middle = .ok (id, after)) :
    Added scope before after ⟨id, scope, reads, declares, before.symbols.scopes.visible scope,
      before.symbols.variables.size, middle.symbols.variables.size⟩ kind := by
  obtain ⟨at_, same, size, old, uid, symbols⟩ := addNode_site done
    (before.symbols.scopes.visible scope) before.symbols.variables.size
    middle.symbols.variables.size
  rw [graph] at same size old
  refine ⟨same, size, old, at_, ?_, ?_, ?_⟩
  · exact ⟨fun _ known => known, Nat.le_refl _, extends_.count, fun _ => lt_of_mem_visible sound, fresh,
      visible⟩
  · rw [symbols]
    exact ⟨seen, Nat.le_refl _⟩
  · rw [symbols]
    exact site_fits sound (sound'.recount uid) open_ (extends_.recount uid) rfl

theorem Lays.append {linked : Draft} {first second : Piece} {route tail : Route}
    {scope' : ScopeId}
    (front : Lays scope before middle first route) (behind : Lays scope middle after second tail)
    (sound : middle.symbols.Sound) (sound' : after.symbols.Sound)
    (extends_ : Extends scope' middle.symbols after.symbols)
    (done : connect first.last second.first after = .ok ((), linked)) :
    Lays scope before linked ⟨first.first, second.last⟩ (route ++ tail) := by
  obtain ⟨connected, symbols⟩ := connect_ok done
  have size := Graph.size_connect connected
  have lastInside := front.window _ (Route.mem_ids_of_last? front.last)
  have kept : ∀ id ∈ route.ids, after.graph.node? id = middle.graph.node? id :=
    fun id member => behind.old id (front.window id member).2
  refine ⟨?_, ?_, ?_, ?_, ?_, ?_, ?_, ?_, ?_, ?_⟩
  · rw [size, behind.count, front.count, Route.ids_append, List.length_append, Nat.add_assoc]
  · intro id below
    have apart : id ≠ first.last := Nat.ne_of_lt (Nat.lt_of_lt_of_le below lastInside.1)
    rw [connect_node? connected apart, behind.old id (Nat.lt_of_lt_of_le below front.size),
      front.old id below]
  · rw [Route.first?_append, front.entry]
    rfl
  · rw [Route.last?_append, behind.last]
    rfl
  · rw [Route.ids_append, List.nodup_append]
    refine ⟨front.distinct, behind.distinct, fun id member other member' same => ?_⟩
    have below := (front.window id member).2
    have above := (behind.window other member').1
    exact Nat.ne_of_lt (Nat.lt_of_lt_of_le below above) same
  · intro id member
    rw [Route.ids_append, List.mem_append] at member
    rcases member with member | member
    · have inside := front.window id member
      have grows := behind.size
      omega
    · have inside := behind.window id member
      have grows := front.size
      omega
  · refine Route.Laid.append ?_ ?_
    · rw [behind.entry]
      exact (front.laid.congr kept).connect front.distinct front.last connected
    · refine behind.laid.congr fun id member => connect_node? connected ?_
      have above := (behind.window id member).1
      exact Nat.ne_of_gt (Nat.lt_of_lt_of_le lastInside.2 above)
  · rw [symbols]
    exact front.leads.append behind.leads
  · rw [symbols]
    exact (front.fits.extend extends_ sound sound').append behind.fits
  · rw [symbols, Route.declarations_append]
    exact (front.makes.extend extends_).append sound' behind.makes

theorem Lays.leave {piece : Piece} {route : Route} {child : Nat} (sound : before.symbols.Sound)
    (inside : scope < before.symbols.scopes.size)
    (opened : Opened scope before.symbols child middle.symbols)
    (graph : middle.graph = before.graph) (sound' : after.symbols.Sound)
    (extends_ : Extends child middle.symbols after.symbols)
    (lays : Lays child middle after piece route) : Lays scope before after piece route := by
  have start : middle.symbols.context child = before.symbols.context scope := by
    rw [Symbols.context, opened.visible, opened.count]
    rfl
  have whole := (opened.extends_ before.symbols.scopes.size).in_child extends_ opened.new
  have count := lays.count
  have old := lays.old
  have window := lays.window
  rw [graph] at count old window
  have makes := lays.makes
  rw [opened.count] at makes
  refine { lays with count, old, window, makes, leads := ?_ }
  have leads := lays.leads
  rw [start] at leads
  refine leads.forget (fun var seen => ?_) (Nat.le_refl _)
  have seen' : var ∈ after.symbols.scopes.visible scope := seen
  rw [whole.visible_eq sound sound' inside inside, ← opened.visible] at seen'
  exact extends_.visible_subset opened.sound sound' opened.inside seen'

/-- The four edges that join two branches. -/
structure Joined (graph graph' : Graph) (fork merge : NodeId) (first second : Piece) : Prop where
  size : graph'.size = graph.size
  others : ∀ id, id ≠ fork → id ≠ first.last → id ≠ second.last →
    graph'.node? id = graph.node? id
  atFork : fork ≠ first.last → fork ≠ second.last → ∀ {site : Site} {kind : NodeKind},
    site.id = fork → site.At graph kind [] → site.At graph' kind [first.first, second.first]
  laidFirst : ∀ {route : Route}, route.ids.Nodup → fork ∉ route.ids → second.last ∉ route.ids →
    route.last? = some first.last → Route.Laid graph none route →
    Route.Laid graph' (some merge) route
  laidSecond : ∀ {route : Route}, route.ids.Nodup → fork ∉ route.ids → first.last ∉ route.ids →
    route.last? = some second.last → Route.Laid graph none route →
    Route.Laid graph' (some merge) route

theorem joined {graph graph₁ graph₂ graph₃ graph₄ : Graph} {fork merge : NodeId}
    {first second : Piece} (toThen : graph.connect fork first.first = .ok graph₁)
    (toElse : graph₁.connect fork second.first = .ok graph₂)
    (fromThen : graph₂.connect first.last merge = .ok graph₃)
    (fromElse : graph₃.connect second.last merge = .ok graph₄) :
    Joined graph graph₄ fork merge first second where
  size := by
    rw [Graph.size_connect fromElse, Graph.size_connect fromThen, Graph.size_connect toElse,
      Graph.size_connect toThen]
  others := by
    intro id notFork notThen notElse
    rw [connect_node? fromElse notElse, connect_node? fromThen notThen, connect_node? toElse notFork,
      connect_node? toThen notFork]
  atFork := by
    intro notThen notElse site kind same at_
    obtain ⟨node, present, is⟩ := at_
    refine ⟨{ node with successors := node.successors ++ [first.first] ++ [second.first] }, ?_, ?_⟩
    · rw [connect_node? fromElse (same ▸ notElse), connect_node? fromThen (same ▸ notThen),
        Graph.node?_connect toElse, Graph.node?_connect toThen, present]
      simp [same]
    · exact { is with successors := by simp [is.successors] }
  laidFirst := by
    intro route distinct notFork notElse ends laid
    have early : Route.Laid graph₂ none route := laid.congr fun id member => by
      have apart : id ≠ fork := fun same => notFork (same ▸ member)
      rw [connect_node? toElse apart, connect_node? toThen apart]
    exact (early.connect distinct ends fromThen).congr fun id member =>
      connect_node? fromElse fun same => notElse (same ▸ member)
  laidSecond := by
    intro route distinct notFork notThen ends laid
    have early : Route.Laid graph₃ none route := laid.congr fun id member => by
      have apart : id ≠ fork := fun same => notFork (same ▸ member)
      have apart' : id ≠ first.last := fun same => notThen (same ▸ member)
      rw [connect_node? fromThen apart', connect_node? toElse apart, connect_node? toThen apart]
    exact early.connect distinct ends fromElse

theorem joinBranches_ok {fork merge : NodeId} {first second piece : Piece}
    (done : joinBranches fork merge first second before = .ok (piece, after)) :
    piece = ⟨fork, merge⟩ ∧ after.symbols = before.symbols ∧
      Joined before.graph after.graph fork merge first second := by
  obtain ⟨_, _, toThen, done⟩ := bind_ok done
  obtain ⟨_, _, toElse, done⟩ := bind_ok done
  obtain ⟨_, _, fromThen, done⟩ := bind_ok done
  obtain ⟨_, _, fromElse, done⟩ := bind_ok done
  obtain ⟨same, rfl⟩ := pure_ok done
  obtain ⟨toThen, symbols₁⟩ := connect_ok toThen
  obtain ⟨toElse, symbols₂⟩ := connect_ok toElse
  obtain ⟨fromThen, symbols₃⟩ := connect_ok fromThen
  obtain ⟨fromElse, symbols₄⟩ := connect_ok fromElse
  exact ⟨same, symbols₄.trans (symbols₃.trans (symbols₂.trans symbols₁)),
    joined toThen toElse fromThen fromElse⟩

end Lower
end Resumable
