import Resumable.Proofs.Eval.Erasure
import Resumable.Proofs.Eval.Frame
import Resumable.Proofs.Eval.Shared
import Resumable.Proofs.Machine.Code
import Resumable.Proofs.Machine.Course
import Resumable.Proofs.Route.Run

/-! The code of a route runs as the route does. Code leaves the scopes of its branches and a walk
over the route leaves none, so only the variables that are known at a point are compared there. -/

namespace Resumable

open Symbols

/-- What code shows of a fragment that was walked over: it has no type notes, and a unit, which does
nothing, is not written at all. -/
def Fragment.shown : Fragment → List Event
  | .statement s => if s.isUnit then [] else [.fragment (.statement s.untyped)]
  | .condition e => [.fragment (.condition e.untyped)]

theorem Fragment.mem_shown {event : Event} {fragments : List Fragment}
    (member : event ∈ fragments.flatMap shown) : ∃ fragment, event = .fragment fragment := by
  obtain ⟨fragment, _, shows⟩ := List.mem_flatMap.mp member
  cases fragment with
  | statement s =>
      rw [shown] at shows
      split at shows
      · cases shows
      · exact ⟨_, List.mem_singleton.mp shows⟩
  | condition e => exact ⟨_, List.mem_singleton.mp shows⟩

theorem Stmt.exec_of_isUnit {s : Stmt} (unit : s.isUnit = true) (session : Session) :
    s.exec session = (.ok (), session) := by
  cases s with
  | evaluate value location =>
      cases value with
      | literal value mark =>
          cases value with
          | unit => rfl
          | _ => cases unit
      | _ => cases unit
  | _ => cases unit

/-- The scopes of an environment have the names they had, but for names of newer variables in the
innermost one. -/
def Grew (symbols : Symbols) (size : Nat) (before after : Env) : Prop :=
  ∃ first first' rest, before.names = first :: rest ∧ after.names = first' :: rest ∧
    ∀ name ∈ first', name ∈ first ∨ ∃ var : Nat, size ≤ var ∧ Named symbols var name

namespace Grew

variable {symbols : Symbols} {size more : Nat} {first second third : Env}

theorem refl (some_ : first ≠ []) : Grew symbols size first first := by
  cases first with
  | nil => exact absurd rfl some_
  | cons scope outer => exact ⟨_, _, _, rfl, rfl, fun name present => .inl present⟩

theorem mono (grew : Grew symbols more first second) (less : size ≤ more) :
    Grew symbols size first second := by
  obtain ⟨names, names', rest, before, after, each⟩ := grew
  refine ⟨names, names', rest, before, after, fun name present => ?_⟩
  exact (each name present).imp_right fun ⟨var, newer, named⟩ =>
    ⟨var, Nat.le_trans less newer, named⟩

theorem trans (left : Grew symbols size first second) (right : Grew symbols size second third) :
    Grew symbols size first third := by
  obtain ⟨names, names', rest, before, middle, each⟩ := left
  obtain ⟨_, names'', _, middle', after, each'⟩ := right
  obtain ⟨rfl, rfl⟩ := List.cons.inj (middle'.symm.trans middle)
  refine ⟨names, names'', _, before, after, fun name present => ?_⟩
  rcases each' name present with old | new
  · exact each name old
  · exact .inr new

theorem ne_nil (grew : Grew symbols size first second) : second ≠ [] := by
  obtain ⟨_, _, _, _, after, _⟩ := grew
  intro empty
  rw [empty] at after
  cases after

theorem of_exec {s : Stmt} {site : Site} (fits : s.Fits symbols site) (session : Session)
    (some_ : session.env ≠ []) : Grew symbols site.first session.env (s.exec session).2.env := by
  obtain ⟨scope, outer, shape⟩ := List.exists_cons_of_ne_nil some_
  obtain ⟨scope', outer', after, keys, kept⟩ := s.exec_inner session scope outer shape
  refine ⟨scope.map Prod.fst, scope'.map Prod.fst, Env.names outer, by rw [shape]; rfl, ?_, ?_⟩
  · rw [after, ← kept.names_eq]
    rfl
  · exact fun name present => (keys name present).imp_right (fits.bound name)

theorem pop (grew : Grew symbols size first.push second) (some_ : first ≠ []) :
    ∃ scope, second = scope :: second.pop ∧ second.pop.names = first.names ∧
      ∀ name ∈ scope.map Prod.fst, ∃ var : Nat, size ≤ var ∧ Named symbols var name := by
  obtain ⟨names, names', rest, before, after, each⟩ := grew
  obtain ⟨rfl, rfl⟩ := List.cons.inj (show [] :: first.names = names :: rest from before)
  cases second with
  | nil => cases after
  | cons scope outer =>
      obtain ⟨same, others⟩ := List.cons.inj
        (show scope.map Prod.fst :: Env.names outer = names' :: first.names from after)
      have left : Env.pop (scope :: outer) = outer := by
        refine Env.pop_cons fun empty => some_ ?_
        rw [empty] at others
        exact List.map_eq_nil_iff.mp others.symm
      refine ⟨scope, by rw [left], by rw [left, others], fun name present => ?_⟩
      rw [same] at present
      rcases each name present with impossible | new
      · cases impossible
      · exact new

theorem of_names {symbols : Symbols} {size : Nat} {first second : Env}
    (same : second.names = first.names) (some_ : first ≠ []) : Grew symbols size first second := by
  cases first with
  | nil => exact absurd rfl some_
  | cons scope outer => exact ⟨_, _, _, rfl, same, fun name present => .inl present⟩

end Grew

theorem Shared.pop {symbols : Symbols} {vars : List VarId} {scope : List (String × Value)}
    {left right : Env} {size : Nat} (shared : Shared symbols vars (scope :: left) right)
    (sound : symbols.Sound) (older : ∀ var : Nat, var ∈ vars → var < size)
    (newer : ∀ name ∈ scope.map Prod.fst, ∃ var : Nat, size ≤ var ∧ Named symbols var name) :
    Shared symbols vars left right := by
  refine shared.congr (fun var member name named => ?_) fun _ _ _ _ => rfl
  refine (Env.get?_cons_of_not_mem fun present => ?_).symm
  obtain ⟨other, later, named'⟩ := newer name present
  have same := named.unique sound named'
  exact absurd (older var member) (Nat.not_lt_of_le (same ▸ later))

section Conduct

variable {slots : SlotTable} {symbols : Symbols} {held : VarId → Bool}
  {leave : Site → Expr → List Emitted} {size : Nat} {before behind : Context}
  {activation : Activation} {route : Route} {flat : Session} {course : Course} {walked : Route.Walked}

/-- A course of code that runs as a route is walked. Where the walk comes to a suspension, the code
goes on with what is written there. -/
inductive Conducted (slots : SlotTable) (symbols : Symbols) (held : VarId → Bool)
    (leave : Site → Expr → List Emitted) (size : Nat) (behind : Context)
    (activation : Activation) (walked : Route.Walked) : Course → Prop where
  | failed {failure : Failure} {events : List Event} (session : Session) :
    events = walked.fragments.flatMap Fragment.shown → walked.result = .error failure →
    failure.Own → Conducted slots symbols held leave size behind activation walked
      ⟨events, .error failure, activation.withSession session⟩
  | passed {events : List Event} (session : Session) :
    events = walked.fragments.flatMap Fragment.shown → walked.result = .ok none →
    Shared symbols (behind.known.filter held) session.env walked.after.env →
    Grew symbols size activation.session.env session.env → walked.after.env ≠ [] →
    Conducted slots symbols held leave size behind activation walked
      ⟨events, .ok .onward, activation.withSession session⟩
  | halted {events : List Event} (halt : Halt) (session last : Session) :
    events = walked.fragments.flatMap Fragment.shown → walked.result = .ok (some halt) →
    Shared symbols (halt.site.known.filter held) session.env walked.after.env →
    session.env ≠ [] → walked.after.env ≠ [] →
      Conducted slots symbols held leave size behind activation walked
      (((Emitted.courseAll slots (leave halt.site halt.payload)
        (activation.withSession session)).ending last).behind events)

theorem Conducted.widen {more : Nat}
    (conducted : Conducted slots symbols held leave more behind activation walked course)
    (less : size ≤ more) :
    Conducted slots symbols held leave size behind activation walked course := by
  cases conducted with
  | failed session shown failed own => exact .failed session shown failed own
  | passed session shown done shared grew some_ =>
      exact .passed session shown done shared (grew.mono less) some_
  | halted halt session last shown stopped shared some_ openFlat =>
      exact .halted halt session last shown stopped shared some_ openFlat

theorem Conducted.later {more : Nat} {session : Session} {events : List Event}
    (fragments : List Fragment) (same : events = fragments.flatMap Fragment.shown)
    (grew : Grew symbols size activation.session.env session.env) (less : size ≤ more)
    (conducted : Conducted slots symbols held leave more behind (activation.withSession session)
      walked course) :
    Conducted slots symbols held leave size behind activation (walked.behind fragments)
      (course.behind events) := by
  have joined : ∀ {more : List Event}, more = walked.fragments.flatMap Fragment.shown →
      events ++ more = (walked.behind fragments).fragments.flatMap Fragment.shown := by
    rintro _ rfl
    rw [same]
    exact List.flatMap_append.symm
  cases conducted with
  | failed last shown failed own => exact .failed last (joined shown) failed own
  | passed last shown done shared grew' some_ =>
      exact .passed last (joined shown) done shared (grew.trans (grew'.mono less)) some_
  | halted halt inner last shown stopped shared some_ openFlat =>
      rw [Course.behind_behind]
      exact .halted halt inner last (joined shown) stopped shared some_ openFlat

theorem Conducted.scoped {known : List VarId} {last : Nat} (sound : symbols.Sound)
    (older : ∀ var : Nat, var ∈ known → var < size) (some_ : activation.session.env ≠ [])
    (conducted : Conducted slots symbols held leave size ⟨known, last⟩ activation.push walked
      course) :
    Conducted slots symbols held leave size ⟨known, last⟩ activation walked course.pop := by
  cases conducted with
  | failed session shown failed own =>
      exact .failed { session with env := session.env.pop } shown failed own
  | passed session shown done shared grew open_ =>
      obtain ⟨scope, shape, names, newer⟩ := grew.pop some_
      rw [shape] at shared
      exact .passed { session with env := session.env.pop } shown done
        (shared.pop sound (fun var member => older var (List.mem_of_mem_filter member)) newer)
        (.of_names names some_) open_
  | halted halt session last shown stopped shared open_ openFlat =>
      exact .halted halt session { last with env := last.env.pop } shown stopped shared open_
        openFlat

/-- One route behind another. The code goes on where the walk comes to its end, and not where it
stops before. -/
theorem Conducted.andThen {middle : Context} {more : Nat} {rest : Route}
    {next : Session → Route.Walked} {onward : Activation → Course}
    (ends : ∀ site payload activation,
      (Emitted.courseAll slots (leave site payload) activation).result ≠ .ok .onward)
    (less : size ≤ more)
    (first : Conducted slots symbols held leave size middle activation walked course)
    (last : ∀ session, walked.result = .ok none →
      Shared symbols (middle.known.filter held) session.env walked.after.env →
      session.env ≠ [] → walked.after.env ≠ [] →
      Conducted slots symbols held leave more behind (activation.withSession session)
        (next walked.after) (onward (activation.withSession session))) :
    Conducted slots symbols held leave size behind activation (walked.andThen rest next)
      (course.andThen onward) := by
  rcases walked with ⟨fragments, result, after⟩
  cases first with
  | failed session shown failed own =>
      obtain rfl : result = _ := failed
      exact .failed session shown rfl own
  | passed session shown done shared grew some_ =>
      obtain rfl : result = _ := done
      exact (last session rfl shared grew.ne_nil some_).later fragments shown grew less
  | halted halt session inner shown stopped shared some_ openFlat =>
      obtain rfl : result = _ := stopped
      rw [Course.andThen_of_ended]
      · exact .halted (halt.followedBy rest) session inner shown rfl shared some_ openFlat
      · exact ends halt.site halt.payload _

theorem known_subset {site : Site} {context : Context} (within : site.Within context) :
    site.known.filter held ⊆ context.known.filter held := by
  intro var member
  obtain ⟨known, holds⟩ := List.mem_filter.mp member
  exact List.mem_filter.mpr ⟨within.known var known, holds⟩

theorem after_subset {site : Site} :
    site.after.known.filter held ⊆ site.declares.toList ++ site.known.filter held := by
  intro var member
  obtain ⟨known, holds⟩ := List.mem_filter.mp member
  rcases List.mem_append.mp known with new | old
  · exact List.mem_append_left _ new
  · exact List.mem_append_right _ (List.mem_filter.mpr ⟨old, holds⟩)

theorem after_eq {site : Site} (none_ : site.declares = none) : site.after.known = site.known := by
  rw [Site.after, none_]
  rfl

theorem courseAll_statementCode (s : Stmt) (rest : List Emitted) :
    Emitted.courseAll slots (Emit.statementCode s ++ rest) activation =
      match s.exec activation.session with
      | (.ok _, session) =>
        (Emitted.courseAll slots rest (activation.withSession session)).behind
          (Fragment.statement s).shown
      | (.error failure, session) =>
        ⟨(Fragment.statement s).shown, .error failure, activation.withSession session⟩ := by
  cases unit : s.isUnit with
  | true =>
      rw [Emit.statementCode, Fragment.shown, if_pos unit, if_pos unit, s.exec_of_isUnit unit]
      rfl
  | false =>
      have loud : ¬ s.isUnit = true := by simp [unit]
      have ran : Emitted.courseAll slots (.run s.untyped :: rest) activation = _ :=
        Emitted.courseAll_run rest s.untyped
      rw [s.exec_untyped] at ran
      rw [Emit.statementCode, Fragment.shown, if_neg loud, if_neg loud]
      exact ran

/-- The code of a route whose front reads only what is held. -/
theorem Route.code_conducted (sound : symbols.Sound)
    (ends : ∀ site payload activation,
      (Emitted.courseAll slots (leave site payload) activation).result ≠ .ok .onward)
    (leads : Leads before route behind) (fits : route.Fits symbols)
    (reads : ∀ site ∈ route.front, ∀ var ∈ site.reads, held var = true)
    (shared : Shared symbols (before.known.filter held) activation.session.env flat.env)
    (some_ : activation.session.env ≠ []) (someFlat : flat.env ≠ []) :
    Conducted slots symbols held leave before.size behind activation (route.walk flat)
      (Emitted.courseAll slots (route.code leave) activation) := by
  induction route generalizing before behind activation flat with
  | stop =>
      refine .passed activation.session rfl rfl (shared.mono fun var member => ?_) (.refl some_)
        someFlat
      obtain ⟨known, holds⟩ := List.mem_filter.mp member
      exact List.mem_filter.mpr ⟨leads.1 var known, holds⟩
  | plain site statement rest ih =>
      obtain ⟨within, leads⟩ := leads
      have readsRest : ∀ other ∈ rest.front, ∀ var ∈ other.reads, held var = true :=
        fun other member => reads other (List.mem_cons_of_mem _ member)
      have further := Nat.le_trans within.size within.grows
      cases statement with
      | none =>
          have known : site.after.known.filter held ⊆ before.known.filter held :=
            (after_eq fits.2.1.1).symm ▸ known_subset within
          exact (ih leads fits.2.2 readsRest (shared.mono known) some_ someFlat).widen further
      | some s =>
          obtain ⟨_, fit, fits⟩ := fits
          have inside : site.reads ⊆ site.known.filter held := fun var member =>
            List.mem_filter.mpr ⟨within.reads var member, reads site List.mem_cons_self var member⟩
          have after := (shared.mono (known_subset within)).exec sound some_ someFlat fit inside
            fun var member => within.older var (List.mem_of_mem_filter member)
          have grew := (Grew.of_exec fit activation.session some_).mono within.size
          have events : (Fragment.statement s).shown = [Fragment.statement s].flatMap Fragment.shown :=
            (List.append_nil _).symm
          rw [code, walk, courseAll_statementCode]
          rcases outcome : s.exec activation.session with ⟨result, session⟩
          rcases outcome' : s.exec flat with ⟨result', flat'⟩
          rw [outcome, outcome'] at after
          rw [outcome] at grew
          obtain rfl : result' = result := after.result
          cases result' with
          | error failure => exact .failed session events rfl (after.own failure rfl)
          | ok =>
              exact (ih leads fits readsRest ((after.shared rfl).mono after_subset)
                after.openLeft after.openRight).later _ events grew further
  | suspend site payload rest _ =>
      exact .halted ⟨site, payload, rest⟩ activation.session
        (Emitted.courseAll slots (leave site payload) activation).after.session rfl rfl
        (shared.mono (known_subset leads.1)) some_ someFlat
  | branch site condition thenRoute elseRoute rest thenIH elseIH ih =>
      obtain ⟨within, size, leadsThen, leadsElse, leads⟩ := leads
      have further := Nat.le_trans within.size within.grows
      obtain ⟨_, none_, fit, fitsThen, fitsElse, fits⟩ := fits
      have inside : site.reads ⊆ site.known.filter held := fun var member =>
        List.mem_filter.mpr ⟨within.reads var member, reads site List.mem_cons_self var member⟩
      have known := shared.mono (known_subset within)
      have tests := known.evalCondition fit inside
      rw [code, walk_branch, Emitted.courseAll_branch, condition.evalCondition_untyped, ← tests]
      cases outcome : condition.evalCondition flat.env with
      | error failure =>
          exact .failed activation.session rfl rfl
            (known.evalCondition_own fit inside (tests ▸ outcome))
      | ok test =>
          -- The branch that is chosen runs in a scope of its own.
          obtain ⟨chosen, taken, leadsIn, fitsIn, frontIn, walks, writes⟩ :
              ∃ chosen, (chosen = thenRoute ∨ chosen = elseRoute) ∧
                Leads site.after chosen ⟨site.known, size⟩ ∧ chosen.Fits symbols ∧
                (∀ other ∈ chosen.front, ∀ var ∈ other.reads, held var = true) ∧
                (if test then thenRoute else elseRoute) = chosen ∧
                (if test then thenRoute.code leave else elseRoute.code leave) =
                  chosen.code leave := by
            cases test
            · exact ⟨elseRoute, .inr rfl, leadsElse, fitsElse, fun other member => reads other
                (by simp [front, member]), rfl, rfl⟩
            · exact ⟨thenRoute, .inl rfl, leadsThen, fitsThen, fun other member => reads other
                (by simp [front, member]), rfl, rfl⟩
          have sharedIn : Shared symbols (site.after.known.filter held)
              activation.push.session.env flat.env := by
            rw [after_eq none_]
            exact known.congr (fun _ _ _ _ => rfl) fun _ _ _ _ => rfl
          have inner : Conducted slots symbols held leave site.last ⟨site.known, size⟩
              activation.push (chosen.walk flat)
              (Emitted.courseAll slots (chosen.code leave) activation.push) := by
            rcases taken with rfl | rfl
            · exact thenIH leadsIn fitsIn frontIn sharedIn (List.cons_ne_nil _ _) someFlat
            · exact elseIH leadsIn fitsIn frontIn sharedIn (List.cons_ne_nil _ _) someFlat
          have apart := inner.scoped sound (fun var member =>
            Nat.lt_of_lt_of_le (within.older var member) within.grows) some_
          have first := apart.later [.condition condition] rfl (.refl some_) further
          dsimp only
          rw [walks, writes, ← Course.andThen_behind]
          refine first.andThen ends (Nat.le_trans further leadsIn.size_le)
            fun session done shared' open_ openFlat => ?_
          have passes := passes_of_walk done
          have through : (thenRoute.passes || elseRoute.passes) = true := by
            rcases taken with rfl | rfl <;> simp [passes]
          have readsRest : ∀ other ∈ rest.front, ∀ var ∈ other.reads, held var = true :=
            fun other member => reads other (by simp [front, through, member])
          rw [if_pos through]
          exact ih leads fits readsRest shared' open_ openFlat

end Conduct
end Resumable
