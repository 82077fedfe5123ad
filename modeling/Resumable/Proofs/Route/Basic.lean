import Mathlib.Data.List.Nodup
import Resumable.Graph.Basic
import Resumable.Eval.Exec

/-! Routes: the structured code that a piece of graph stands for. Where two branches meet again, the
rest of the route follows both of them. -/

namespace Resumable

/-- A node on a route, with what was known when it was made: the variables that are visible there,
and how many variables there were before and after it. -/
structure Site where
  id : NodeId
  scope : ScopeId
  reads : List VarId
  declares : Option VarId
  known : List VarId
  first : Nat
  last : Nat

/-- A merge is a plain site without a statement. -/
inductive Route where
  | stop
  | plain (site : Site) (statement : Option Stmt) (rest : Route)
  | suspend (site : Site) (payload : Expr) (rest : Route)
  | branch (site : Site) (condition : Expr) (thenRoute elseRoute rest : Route)

namespace Route

def append : Route → Route → Route
  | stop, tail => tail
  | plain site statement rest, tail => plain site statement (rest.append tail)
  | suspend site payload rest, tail => suspend site payload (rest.append tail)
  | branch site condition thenRoute elseRoute rest, tail =>
    branch site condition thenRoute elseRoute (rest.append tail)

instance : Append Route := ⟨append⟩

@[simp] theorem stop_append (tail : Route) : stop ++ tail = tail := rfl

@[simp] theorem plain_append (site : Site) (statement : Option Stmt) (rest tail : Route) :
    plain site statement rest ++ tail = plain site statement (rest ++ tail) := rfl

@[simp] theorem suspend_append (site : Site) (payload : Expr) (rest tail : Route) :
    suspend site payload rest ++ tail = suspend site payload (rest ++ tail) := rfl

@[simp] theorem branch_append (site : Site) (condition : Expr)
    (thenRoute elseRoute rest tail : Route) :
    branch site condition thenRoute elseRoute rest ++ tail =
      branch site condition thenRoute elseRoute (rest ++ tail) := rfl

@[simp] theorem append_stop (route : Route) : route ++ stop = route := by
  induction route with
  | stop => rfl
  | plain _ _ _ ih => rw [plain_append, ih]
  | suspend _ _ _ ih => rw [suspend_append, ih]
  | branch _ _ _ _ _ _ _ ih => rw [branch_append, ih]

theorem append_assoc (first second third : Route) :
    first ++ second ++ third = first ++ (second ++ third) := by
  induction first with
  | stop => rfl
  | plain _ _ _ ih => simp only [plain_append, ih]
  | suspend _ _ _ ih => simp only [suspend_append, ih]
  | branch _ _ _ _ _ _ _ ih => simp only [branch_append, ih]

def first? : Route → Option NodeId
  | stop => none
  | plain site _ _ => some site.id
  | suspend site _ _ => some site.id
  | branch site _ _ _ _ => some site.id

/-- The node that whatever follows a route is connected to. -/
def last? : Route → Option NodeId
  | stop => none
  | plain site _ rest => rest.last?.or (some site.id)
  | suspend site _ rest => rest.last?.or (some site.id)
  | branch site _ _ _ rest => rest.last?.or (some site.id)

@[simp] theorem first?_append (route tail : Route) :
    (route ++ tail).first? = route.first?.or tail.first? := by
  cases route <;> rfl

@[simp] theorem last?_append (route tail : Route) :
    (route ++ tail).last? = tail.last?.or route.last? := by
  induction route with
  | stop => simp [last?]
  | plain _ _ _ ih => simp [last?, ih]
  | suspend _ _ _ ih => simp [last?, ih]
  | branch _ _ _ _ _ _ _ ih => simp [last?, ih]

theorem first?_eq_none {route : Route} : route.first? = none ↔ route = stop := by
  cases route <;> simp [first?]

theorem last?_eq_none {route : Route} : route.last? = none ↔ route = stop := by
  cases route <;> simp [last?]

/-- All sites, those of both branches before those behind them. -/
def sites : Route → List Site
  | stop => []
  | plain site _ rest => site :: rest.sites
  | suspend site _ rest => site :: rest.sites
  | branch site _ thenRoute elseRoute rest =>
    site :: (thenRoute.sites ++ (elseRoute.sites ++ rest.sites))

@[simp] theorem sites_append (route tail : Route) :
    (route ++ tail).sites = route.sites ++ tail.sites := by
  induction route with
  | stop => rfl
  | plain _ _ _ ih => simp [sites, ih]
  | suspend _ _ _ ih => simp [sites, ih]
  | branch _ _ _ _ _ _ _ ih => simp [sites, ih]

def ids (route : Route) : List NodeId := route.sites.map Site.id

@[simp] theorem ids_append (route tail : Route) : (route ++ tail).ids = route.ids ++ tail.ids := by
  simp [ids]

@[simp] theorem ids_stop : stop.ids = [] := rfl

@[simp] theorem ids_plain (site : Site) (statement : Option Stmt) (rest : Route) :
    (plain site statement rest).ids = site.id :: rest.ids := rfl

@[simp] theorem ids_suspend (site : Site) (payload : Expr) (rest : Route) :
    (suspend site payload rest).ids = site.id :: rest.ids := rfl

theorem ids_branch (site : Site) (condition : Expr) (thenRoute elseRoute rest : Route) :
    (branch site condition thenRoute elseRoute rest).ids =
      site.id :: (thenRoute.ids ++ (elseRoute.ids ++ rest.ids)) := by
  simp [ids, sites]

theorem mem_ids_of_first? {route : Route} {id : NodeId} (starts : route.first? = some id) :
    id ∈ route.ids := by
  cases route with
  | stop => cases starts
  | plain | suspend | branch =>
      cases starts
      simp [ids, sites]

theorem mem_ids_of_last? {route : Route} {id : NodeId} (ends : route.last? = some id) :
    id ∈ route.ids := by
  induction route with
  | stop => cases ends
  | plain site _ rest ih | suspend site _ rest ih =>
      rw [last?, Option.or_eq_some_iff] at ends
      rcases ends with inside | ⟨_, here⟩
      · exact List.mem_cons_of_mem _ (ih inside)
      · cases here
        exact List.mem_cons_self
  | branch site _ thenRoute elseRoute rest _ _ ih =>
      rw [last?, Option.or_eq_some_iff] at ends
      rw [ids_branch]
      rcases ends with inside | ⟨_, here⟩
      · exact List.mem_cons_of_mem _ (List.mem_append_right _ (List.mem_append_right _ (ih inside)))
      · cases here
        exact List.mem_cons_self

/-- What is left of a route from each of its nodes on, the route itself first. -/
def tails : Route → List Route
  | stop => []
  | route@(plain _ _ rest) => route :: rest.tails
  | route@(suspend _ _ rest) => route :: rest.tails
  | route@(branch _ _ thenRoute elseRoute rest) =>
    route :: (thenRoute.tails.map (· ++ rest) ++ (elseRoute.tails.map (· ++ rest) ++ rest.tails))

theorem self_mem_tails {route : Route} (some_ : route ≠ stop) : route ∈ route.tails := by
  cases route with
  | stop => exact absurd rfl some_
  | plain | suspend | branch => exact List.mem_cons_self

theorem tails_append (route tail : Route) :
    (route ++ tail).tails = route.tails.map (· ++ tail) ++ tail.tails := by
  induction route with
  | stop => rfl
  | plain _ _ _ ih => simp [tails, ih]
  | suspend _ _ _ ih => simp [tails, ih]
  | branch _ _ _ _ _ _ _ ih =>
      simp only [branch_append, tails, ih, List.map_cons, List.map_append, List.map_map,
        List.cons_append, List.append_assoc]
      simp only [Function.comp_def, append_assoc]

theorem tails_trans {route tail further : Route} (inside : tail ∈ route.tails)
    (behind : further ∈ tail.tails) : further ∈ route.tails := by
  induction route generalizing tail further with
  | stop => cases inside
  | plain _ _ _ ih | suspend _ _ _ ih =>
      rcases List.mem_cons.mp inside with rfl | deeper
      · exact behind
      · exact List.mem_cons_of_mem _ (ih deeper behind)
  | branch _ _ thenRoute elseRoute rest thenIH elseIH ih =>
      rcases List.mem_cons.mp inside with rfl | deeper
      · exact behind
      · refine List.mem_cons_of_mem _ ?_
        simp only [List.mem_append, List.mem_map] at deeper ⊢
        rcases deeper with ⟨part, present, rfl⟩ | ⟨part, present, rfl⟩ | present
        · rw [tails_append, List.mem_append, List.mem_map] at behind
          rcases behind with ⟨piece, within, rfl⟩ | present'
          · exact .inl ⟨piece, thenIH present within, rfl⟩
          · exact .inr (.inr present')
        · rw [tails_append, List.mem_append, List.mem_map] at behind
          rcases behind with ⟨piece, within, rfl⟩ | present'
          · exact .inr (.inl ⟨piece, elseIH present within, rfl⟩)
          · exact .inr (.inr present')
        · exact .inr (.inr (ih present behind))

theorem ne_stop_of_mem_tails {route tail : Route} (inside : tail ∈ route.tails) : tail ≠ stop := by
  induction route generalizing tail with
  | stop => cases inside
  | plain _ _ _ ih | suspend _ _ _ ih =>
      rcases List.mem_cons.mp inside with rfl | deeper
      · exact Route.noConfusion
      · exact ih deeper
  | branch _ _ thenRoute elseRoute rest thenIH elseIH ih =>
      rcases List.mem_cons.mp inside with rfl | deeper
      · exact Route.noConfusion
      · simp only [List.mem_append, List.mem_map] at deeper
        rcases deeper with ⟨part, present, rfl⟩ | ⟨part, present, rfl⟩ | present
        · intro empty
          have both := congrArg first? empty
          rw [first?_append, first?, Option.or_eq_none_iff] at both
          exact thenIH present (first?_eq_none.mp both.1)
        · intro empty
          have both := congrArg first? empty
          rw [first?_append, first?, Option.or_eq_none_iff] at both
          exact elseIH present (first?_eq_none.mp both.1)
        · exact ih present

theorem first?_append_of_mem_tails {route tail rest : Route} (inside : tail ∈ route.tails) :
    (tail ++ rest).first? = tail.first? := by
  rw [first?_append]
  cases starts : tail.first? with
  | none => exact absurd (first?_eq_none.mp starts) (ne_stop_of_mem_tails inside)
  | some => rfl

theorem entries_tails (route : Route) : route.tails.map first? = route.ids.map some := by
  induction route with
  | stop => rfl
  | plain _ _ _ ih | suspend _ _ _ ih =>
      simp only [tails, List.map_cons, ih]
      rfl
  | branch _ _ thenRoute elseRoute rest thenIH elseIH ih =>
      have keep : ∀ part : Route, (part.tails.map (· ++ rest)).map first? =
          part.tails.map first? := by
        intro part
        rw [List.map_map]
        exact List.map_congr_left fun tail inside => first?_append_of_mem_tails inside
      rw [ids_branch]
      simp only [tails, List.map_cons, List.map_append, keep, thenIH, elseIH, ih]
      rfl

theorem tail_eq_of_first? {route tail tail' : Route} {id : NodeId} (distinct : route.ids.Nodup)
    (inside : tail ∈ route.tails) (inside' : tail' ∈ route.tails) (starts : tail.first? = some id)
    (starts' : tail'.first? = some id) : tail = tail' := by
  have entries : (route.tails.map first?).Nodup := by
    rw [entries_tails]
    exact distinct.map fun _ _ => Option.some.inj
  exact List.inj_on_of_nodup_map entries inside inside' (starts.trans starts'.symm)

theorem sites_sublist_of_mem_tails {route tail : Route} (inside : tail ∈ route.tails) :
    tail.sites.Sublist route.sites := by
  induction route generalizing tail with
  | stop => cases inside
  | plain _ _ _ ih | suspend _ _ _ ih =>
      rcases List.mem_cons.mp inside with rfl | deeper
      · exact List.Sublist.refl _
      · exact (ih deeper).cons _
  | branch _ _ thenRoute elseRoute rest thenIH elseIH ih =>
      rcases List.mem_cons.mp inside with rfl | deeper
      · exact List.Sublist.refl _
      · refine List.Sublist.cons _ ?_
        simp only [List.mem_append, List.mem_map] at deeper
        rcases deeper with ⟨part, within, rfl⟩ | ⟨part, within, rfl⟩ | within
        · rw [sites_append]
          exact (thenIH within).append (List.sublist_append_right _ _)
        · rw [sites_append]
          exact ((elseIH within).append_right _).trans (List.sublist_append_right _ _)
        · exact (ih within).trans
            ((List.sublist_append_right _ _).trans (List.sublist_append_right _ _))

theorem ids_sublist_of_mem_tails {route tail : Route} (inside : tail ∈ route.tails) :
    tail.ids.Sublist route.ids :=
  (sites_sublist_of_mem_tails inside).map Site.id

end Route
end Resumable
