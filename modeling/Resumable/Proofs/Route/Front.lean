import Resumable.Proofs.Route.Context

/-! The front of a route: what can run before the next suspension, and where it halts. -/

namespace Resumable

/-- A suspension with what it hands out and the route that is left behind it. -/
structure Halt where
  site : Site
  payload : Expr
  rest : Route

namespace Halt

def followedBy (halt : Halt) (tail : Route) : Halt := { halt with rest := halt.rest ++ tail }

def route (halt : Halt) : Route := .suspend halt.site halt.payload halt.rest

end Halt

namespace Route

/-- Whether some way through the route meets no suspension. -/
def passes : Route → Bool
  | stop => true
  | plain _ _ rest => rest.passes
  | suspend .. => false
  | branch _ _ thenRoute elseRoute rest => (thenRoute.passes || elseRoute.passes) && rest.passes

/-- The sites that run before the next suspension on some way, suspensions included. -/
def front : Route → List Site
  | stop => []
  | plain site _ rest => site :: rest.front
  | suspend site _ _ => [site]
  | branch site _ thenRoute elseRoute rest =>
    site :: (thenRoute.front ++ (elseRoute.front ++
      if thenRoute.passes || elseRoute.passes then rest.front else []))

/-- The suspensions that can come first. -/
def halts : Route → List Halt
  | stop => []
  | plain _ _ rest => rest.halts
  | suspend site payload rest => [⟨site, payload, rest⟩]
  | branch _ _ thenRoute elseRoute rest =>
    thenRoute.halts.map (·.followedBy rest) ++ (elseRoute.halts.map (·.followedBy rest) ++
      if thenRoute.passes || elseRoute.passes then rest.halts else [])

theorem front_subset (route : Route) : route.front ⊆ route.sites := by
  induction route with
  | stop => exact List.Subset.refl _
  | plain site _ rest ih => exact List.cons_subset_cons _ ih
  | suspend site _ rest _ => simp [front, sites]
  | branch site _ thenRoute elseRoute rest thenIH elseIH ih =>
      intro other present
      simp only [front, sites, List.mem_cons, List.mem_append] at present ⊢
      rcases present with here | here | here | here
      · exact .inl here
      · exact .inr (.inl (thenIH here))
      · exact .inr (.inr (.inl (elseIH here)))
      · split at here
        · exact .inr (.inr (.inr (ih here)))
        · simp at here

theorem exists_halt_of_not_passes {route : Route} (blocked : route.passes = false) :
    ∃ halt, halt ∈ route.halts := by
  induction route with
  | stop => cases blocked
  | plain _ _ rest ih => exact ih blocked
  | suspend site payload rest _ => exact ⟨_, List.mem_cons_self⟩
  | branch _ _ thenRoute elseRoute rest thenIH elseIH ih =>
      simp only [passes, Bool.and_eq_false_iff] at blocked
      by_cases through : (thenRoute.passes || elseRoute.passes) = true
      · have further : rest.passes = false := by
          rcases blocked with impossible | further
          · rw [impossible] at through
            cases through
          · exact further
        obtain ⟨halt, present⟩ := ih further
        refine ⟨halt, ?_⟩
        simp only [halts, if_pos through, List.mem_append]
        exact .inr (.inr present)
      · have closed : thenRoute.passes = false := by
          simp only [Bool.not_eq_true, Bool.or_eq_false_iff] at through
          exact through.1
        obtain ⟨halt, present⟩ := thenIH closed
        refine ⟨halt.followedBy rest, ?_⟩
        simp only [halts, List.mem_append]
        exact .inl (List.mem_map_of_mem present)

theorem halt_mem_tails {route : Route} {halt : Halt} (present : halt ∈ route.halts) :
    halt.route ∈ route.tails := by
  induction route generalizing halt with
  | stop => cases present
  | plain _ _ rest ih => exact List.mem_cons_of_mem _ (ih present)
  | suspend site payload rest _ =>
      have equal : halt = ⟨site, payload, rest⟩ := by simpa [halts] using present
      rw [equal]
      exact List.mem_cons_self
  | branch site condition thenRoute elseRoute rest thenIH elseIH ih =>
      refine List.mem_cons_of_mem _ ?_
      simp only [halts, List.mem_append, List.mem_map] at present ⊢
      rcases present with ⟨inner, within, rfl⟩ | ⟨inner, within, rfl⟩ | within
      · exact .inl ⟨inner.route, thenIH within, rfl⟩
      · exact .inr (.inl ⟨inner.route, elseIH within, rfl⟩)
      · split at within
        · exact .inr (.inr (ih within))
        · simp at within

theorem halt_mem_front {route : Route} {halt : Halt} (present : halt ∈ route.halts) :
    halt.site ∈ route.front := by
  induction route generalizing halt with
  | stop => cases present
  | plain _ _ rest ih => exact List.mem_cons_of_mem _ (ih present)
  | suspend site payload rest _ =>
      have equal : halt = ⟨site, payload, rest⟩ := by simpa [halts] using present
      rw [equal]
      exact List.mem_cons_self
  | branch site condition thenRoute elseRoute rest thenIH elseIH ih =>
      refine List.mem_cons_of_mem _ ?_
      simp only [halts, List.mem_append, List.mem_map] at present ⊢
      rcases present with ⟨inner, within, rfl⟩ | ⟨inner, within, rfl⟩ | within
      · have met := thenIH within
        exact .inl met
      · have met := elseIH within
        exact .inr (.inl met)
      · split at within
        · rename_i through
          rw [if_pos through]
          exact .inr (.inr (ih within))
        · simp at within

theorem rest_mem_tails {route : Route} {halt : Halt} (present : halt ∈ route.halts)
    (some_ : halt.rest ≠ stop) : halt.rest ∈ route.tails := by
  have inside := halt_mem_tails present
  have behind : halt.rest ∈ halt.route.tails := List.mem_cons_of_mem _ (self_mem_tails some_)
  exact tails_trans inside behind

theorem mem_front_or_rest {route : Route} {site : Site} (present : site ∈ route.sites) :
    site ∈ route.front ∨ ∃ halt ∈ route.halts, site ∈ halt.rest.sites := by
  induction route with
  | stop => simp [sites] at present
  | plain other _ rest ih =>
      rcases List.mem_cons.mp present with rfl | further
      · exact .inl List.mem_cons_self
      · exact (ih further).imp_left (List.mem_cons_of_mem _)
  | suspend other payload rest _ =>
      rcases List.mem_cons.mp present with rfl | further
      · exact .inl List.mem_cons_self
      · exact .inr ⟨_, List.mem_cons_self, further⟩
  | branch other condition thenRoute elseRoute rest thenIH elseIH ih =>
      simp only [sites, List.mem_cons, List.mem_append] at present
      simp only [front, halts, List.mem_cons, List.mem_append, List.mem_map]
      rcases present with rfl | here | here | here
      · exact .inl (.inl rfl)
      · rcases thenIH here with early | ⟨halt, found, late⟩
        · exact .inl (.inr (.inl early))
        · refine .inr ⟨halt.followedBy rest, .inl ⟨halt, found, rfl⟩, ?_⟩
          simp [Halt.followedBy, late]
      · rcases elseIH here with early | ⟨halt, found, late⟩
        · exact .inl (.inr (.inr (.inl early)))
        · refine .inr ⟨halt.followedBy rest, .inr (.inl ⟨halt, found, rfl⟩), ?_⟩
          simp [Halt.followedBy, late]
      · by_cases through : (thenRoute.passes || elseRoute.passes) = true
        · rw [if_pos through, if_pos through]
          rcases ih here with early | ⟨halt, found, late⟩
          · exact .inl (.inr (.inr (.inr early)))
          · exact .inr ⟨halt, .inr (.inr found), late⟩
        · have closed : thenRoute.passes = false := by
            simp only [Bool.not_eq_true, Bool.or_eq_false_iff] at through
            exact through.1
          obtain ⟨halt, found⟩ := exists_halt_of_not_passes closed
          refine .inr ⟨halt.followedBy rest, .inl ⟨halt, found, rfl⟩, ?_⟩
          simp [Halt.followedBy, here]

namespace Leads

variable {before behind : Context} {route : Route} {site : Site} {var : VarId}

theorem known_before (leads : Leads before route behind) (present : site ∈ route.front)
    (known : var ∈ site.known) (notMade : ∀ maker ∈ route.front, maker.declares ≠ some var) :
    var ∈ before.known := by
  induction route generalizing before behind with
  | stop => cases present
  | plain other _ rest ih =>
      rcases List.mem_cons.mp present with rfl | further
      · exact leads.1.known var known
      · have found := ih leads.2 further fun maker here => notMade maker (List.mem_cons_of_mem _ here)
        rcases List.mem_append.mp found with made | old
        · exact absurd (Option.mem_toList.mp made) (notMade other List.mem_cons_self)
        · exact leads.1.known var old
  | suspend other payload rest _ =>
      have equal : site = other := by simpa [front] using present
      subst equal
      exact leads.1.known var known
  | branch other condition thenRoute elseRoute rest thenIH elseIH ih =>
      obtain ⟨within, size, first, second, last⟩ := leads
      have behindSite : var ∈ other.after.known → var ∈ before.known := by
        intro found
        rcases List.mem_append.mp found with made | old
        · exact absurd (Option.mem_toList.mp made) (notMade other List.mem_cons_self)
        · exact within.known var old
      simp only [front, List.mem_cons, List.mem_append] at present notMade
      rcases present with rfl | here | here | here
      · exact within.known var known
      · exact behindSite (thenIH first here fun maker inside => notMade maker (.inr (.inl inside)))
      · exact behindSite (elseIH second here fun maker inside =>
          notMade maker (.inr (.inr (.inl inside))))
      · split at here
        · rename_i through
          rw [if_pos through] at notMade
          exact within.known var (ih last here fun maker inside =>
            notMade maker (.inr (.inr (.inr inside))))
        · simp at here

end Leads
end Route
end Resumable
