import Resumable.Proofs.Lowering.Whole
import Resumable.Proofs.Route.Context
import Resumable.Proofs.Route.Laid

/-! Fragments that fit the sites they stand at: they use the variables that the site lists, and
these are told apart by their slots. -/

namespace Resumable

open Symbols

/-- A site whose variables are visible in its scope and have slots of their own. -/
structure Site.Fits (symbols : Symbols) (site : Site) : Prop where
  inside : (site.scope : Nat) < symbols.scopes.size
  seen : ∀ var ∈ site.known, var ∈ symbols.scopes.visible site.scope
  apart : ∀ var ∈ site.known, ∀ other ∈ site.known, ∀ info info',
    symbols.variables.get? var = some info → symbols.variables.get? other = some info' →
    info.slot = info'.slot → var = other

/-- An expression over the local names of just the listed variables. -/
structure Expr.Fits (symbols : Symbols) (reads : List VarId) (e : Expr) : Prop extends
    Footprint symbols e.references reads where
  renamed : ∃ (source : Expr) (namings : List Naming), source.Renamed namings e

/-- A statement over the local names of the variables that a site reads and makes. -/
structure Stmt.Fits (symbols : Symbols) (site : Site) (s : Stmt) : Prop extends
    Footprint symbols s.free site.reads where
  renamed : ∃ (source : Stmt) (outer : List Naming) (inner : Naming),
    source.Renamed false outer inner s
  makes : Making symbols site.first site.last s.declarations
  targets : ∀ name ∈ s.targets, ∃ var info, symbols.variables.get? var = some info ∧
    info.localName = name ∧ info.mutable = true
  declares : (s.declared? = none ∧ site.declares = none) ∨ ∃ var name,
    s.declared? = some name ∧ site.declares = some var ∧ Named symbols var name

theorem Stmt.Fits.bound {symbols : Symbols} {site : Site} {s : Stmt} (fits : s.Fits symbols site) :
    ∀ name ∈ s.bound, ∃ var : Nat, site.first ≤ var ∧ Named symbols var name := by
  intro name present
  rw [s.bound_eq] at present
  obtain ⟨made, inside, rfl⟩ := List.mem_map.mp present
  obtain ⟨var, new, _, makes⟩ := fits.makes.each made inside
  exact ⟨var, new, makes.named⟩

namespace Route

def Fits (symbols : Symbols) : Route → Prop
  | stop => True
  | plain site none rest =>
    site.Fits symbols ∧ (site.declares = none ∧ site.reads = []) ∧ Fits symbols rest
  | plain site (some s) rest => site.Fits symbols ∧ s.Fits symbols site ∧ Fits symbols rest
  | suspend site payload rest =>
    site.Fits symbols ∧ site.declares = none ∧ payload.Fits symbols site.reads ∧ Fits symbols rest
  | branch site condition thenRoute elseRoute rest =>
    site.Fits symbols ∧ site.declares = none ∧ condition.Fits symbols site.reads ∧
      Fits symbols thenRoute ∧ Fits symbols elseRoute ∧ Fits symbols rest

end Route

section Extend

variable {scope : ScopeId} {before after : Symbols}

theorem Site.Fits.extend {site : Site} (extends_ : Extends scope before after)
    (sound : before.Sound) (sound' : after.Sound) (fits : site.Fits before) : site.Fits after where
  inside := Nat.lt_of_lt_of_le fits.inside extends_.sizes
  seen := fun var known => extends_.visible_subset sound sound' fits.inside (fits.seen var known)
  apart := by
    have old : ∀ {var : Nat} {info : Variable}, var ∈ site.known →
        after.variables.get? var = some info → before.variables.get? var = some info := by
      intro var info known present
      rwa [extends_.get?_eq (lt_of_mem_visible sound (fits.seen var known))] at present
    intro var known other known' info info' present present'
    exact fits.apart var known other known' info info' (old known present) (old known' present')

theorem Expr.Fits.extend {reads : List VarId} {e : Expr} (extends_ : Extends scope before after)
    (fits : e.Fits before reads) : e.Fits after reads where
  toFootprint := fits.toFootprint.extend extends_
  renamed := fits.renamed

theorem Stmt.Fits.extend {site : Site} {s : Stmt} (extends_ : Extends scope before after)
    (fits : s.Fits before site) : s.Fits after site where
  toFootprint := fits.toFootprint.extend extends_
  renamed := fits.renamed
  makes := fits.makes.extend extends_
  targets := by
    intro name present
    obtain ⟨var, info, there, same, changes⟩ := fits.targets name present
    exact ⟨var, info, extends_.kept var info there, same, changes⟩
  declares := by
    rcases fits.declares with neither | ⟨var, name, declared, made, named⟩
    · exact .inl neither
    · exact .inr ⟨var, name, declared, made, named.extend extends_⟩

theorem Route.Fits.extend {route : Route} (extends_ : Extends scope before after)
    (sound : before.Sound) (sound' : after.Sound) (fits : route.Fits before) :
    route.Fits after := by
  induction route with
  | stop => trivial
  | plain site statement rest ih =>
      cases statement with
      | none =>
          obtain ⟨here, none_, further⟩ := fits
          exact ⟨here.extend extends_ sound sound', none_, ih further⟩
      | some s =>
          obtain ⟨here, fragment, further⟩ := fits
          exact ⟨here.extend extends_ sound sound', fragment.extend extends_, ih further⟩
  | suspend site payload rest ih =>
      obtain ⟨here, none_, fragment, further⟩ := fits
      exact ⟨here.extend extends_ sound sound', none_, fragment.extend extends_, ih further⟩
  | branch site condition thenRoute elseRoute rest thenIH elseIH ih =>
      obtain ⟨here, none_, fragment, first, second, further⟩ := fits
      exact ⟨here.extend extends_ sound sound', none_, fragment.extend extends_, thenIH first,
        elseIH second, ih further⟩

end Extend

theorem Route.Fits.append {symbols : Symbols} {route tail : Route} (first : route.Fits symbols)
    (second : tail.Fits symbols) : (route ++ tail).Fits symbols := by
  induction route with
  | stop => exact second
  | plain site statement rest ih =>
      cases statement with
      | none => exact ⟨first.1, first.2.1, ih first.2.2⟩
      | some s => exact ⟨first.1, first.2.1, ih first.2.2⟩
  | suspend site payload rest ih => exact ⟨first.1, first.2.1, first.2.2.1, ih first.2.2.2⟩
  | branch site condition thenRoute elseRoute rest _ _ ih =>
      obtain ⟨here, none_, fragment, inThen, inElse, further⟩ := first
      exact ⟨here, none_, fragment, inThen, inElse, ih further⟩

theorem Route.Fits.site {symbols : Symbols} {route : Route} (fits : route.Fits symbols)
    {site : Site} (present : site ∈ route.sites) : site.Fits symbols := by
  induction route with
  | stop => cases present
  | plain here statement rest ih =>
      cases statement <;> rcases List.mem_cons.mp present with rfl | behind
      · exact fits.1
      · exact ih fits.2.2 behind
      · exact fits.1
      · exact ih fits.2.2 behind
  | suspend here payload rest ih =>
      rcases List.mem_cons.mp present with rfl | behind
      · exact fits.1
      · exact ih fits.2.2.2 behind
  | branch here condition thenRoute elseRoute rest thenIH elseIH ih =>
      obtain ⟨first, _, _, inThen, inElse, last⟩ := fits
      simp only [Route.sites, List.mem_cons, List.mem_append] at present
      rcases present with rfl | inside | inside | behind
      · exact first
      · exact thenIH inThen inside
      · exact elseIH inElse inside
      · exact ih last behind

theorem Route.Fits.of_mem_tails {symbols : Symbols} {route tail : Route}
    (fits : route.Fits symbols) (inside : tail ∈ route.tails) : tail.Fits symbols := by
  induction route generalizing tail with
  | stop => cases inside
  | plain site statement rest ih =>
      rcases List.mem_cons.mp inside with rfl | deeper
      · exact fits
      · cases statement with
        | none => exact ih fits.2.2 deeper
        | some s => exact ih fits.2.2 deeper
  | suspend site payload rest ih =>
      rcases List.mem_cons.mp inside with rfl | deeper
      · exact fits
      · exact ih fits.2.2.2 deeper
  | branch site condition thenRoute elseRoute rest thenIH elseIH ih =>
      rcases List.mem_cons.mp inside with rfl | deeper
      · exact fits
      · obtain ⟨_, _, _, inThen, inElse, further⟩ := fits
        simp only [List.mem_append, List.mem_map] at deeper
        rcases deeper with ⟨part, present, rfl⟩ | ⟨part, present, rfl⟩ | present
        · exact (thenIH inThen present).append further
        · exact (elseIH inElse present).append further
        · exact ih further present

/-- The fragment of a node fits a site. Only a statement declares anything. -/
def NodeKind.Fits (symbols : Symbols) (site : Site) : NodeKind → Prop
  | branch condition _ => site.declares = none ∧ condition.Fits symbols site.reads
  | merge => site.declares = none ∧ site.reads = []
  | suspend payload => site.declares = none ∧ payload.Fits symbols site.reads
  | statement s => s.Fits symbols site

theorem Route.Laid.site {symbols : Symbols} {graph : Graph} {next : Option NodeId}
    {route : Route} (laid : Route.Laid graph next route) (fits : route.Fits symbols) {id : NodeId}
    {node : Node} (member : id ∈ route.ids) (present : graph.node? id = some node) :
    ∃ site ∈ route.sites, (∃ successors, node.Is site node.kind successors) ∧
      node.kind.Fits symbols site := by
  have here : ∀ {site : Site} {kind : NodeKind} {successors : List NodeId},
      site.At graph kind successors → graph.node? site.id = some node → kind.Fits symbols site →
      (∃ successors, node.Is site node.kind successors) ∧ node.kind.Fits symbols site := by
    intro site kind successors at_ present fragment
    obtain ⟨node', present', is⟩ := at_
    obtain rfl := Option.some.inj (present.symm.trans present')
    obtain rfl := is.kind
    exact ⟨⟨successors, is⟩, fragment⟩
  induction route generalizing next with
  | stop => cases member
  | plain site statement rest ih =>
      cases statement with
      | none =>
          rcases List.mem_cons.mp member with rfl | later
          · exact ⟨site, List.mem_cons_self, here laid.1 present fits.2.1⟩
          · obtain ⟨other, inside, is⟩ := ih laid.2 fits.2.2 later
            exact ⟨other, List.mem_cons_of_mem _ inside, is⟩
      | some s =>
          rcases List.mem_cons.mp member with rfl | later
          · exact ⟨site, List.mem_cons_self, here laid.1 present fits.2.1⟩
          · obtain ⟨other, inside, is⟩ := ih laid.2 fits.2.2 later
            exact ⟨other, List.mem_cons_of_mem _ inside, is⟩
  | suspend site payload rest ih =>
      rcases List.mem_cons.mp member with rfl | later
      · exact ⟨site, List.mem_cons_self, here laid.1 present ⟨fits.2.1, fits.2.2.1⟩⟩
      · obtain ⟨other, inside, is⟩ := ih laid.2 fits.2.2.2 later
        exact ⟨other, List.mem_cons_of_mem _ inside, is⟩
  | branch site condition thenRoute elseRoute rest thenIH elseIH ih =>
      obtain ⟨_, _, _, _, _, _, fork, inThen, inElse, last⟩ := laid
      obtain ⟨_, none_, test, fitsThen, fitsElse, fitsRest⟩ := fits
      rw [ids_branch] at member
      simp only [List.mem_cons, List.mem_append] at member
      rcases member with rfl | member | member | member
      · exact ⟨site, List.mem_cons_self, here fork present ⟨none_, test⟩⟩
      · obtain ⟨other, inside, is⟩ := thenIH inThen fitsThen member
        exact ⟨other, by simp [sites, inside], is⟩
      · obtain ⟨other, inside, is⟩ := elseIH inElse fitsElse member
        exact ⟨other, by simp [sites, inside], is⟩
      · obtain ⟨other, inside, is⟩ := ih last fitsRest member
        exact ⟨other, by simp [sites, inside], is⟩

theorem Route.Laid.fragment {symbols : Symbols} {graph : Graph} {next : Option NodeId}
    {route : Route} (laid : Route.Laid graph next route) (fits : route.Fits symbols) {id : NodeId}
    {node : Node} (member : id ∈ route.ids) (present : graph.node? id = some node) :
    ∃ site, node.declares = site.declares ∧ node.kind.Fits symbols site := by
  obtain ⟨site, _, ⟨_, is⟩, fragment⟩ := laid.site fits member present
  exact ⟨site, is.declares, fragment⟩

end Resumable
