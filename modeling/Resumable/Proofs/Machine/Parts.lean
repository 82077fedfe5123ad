import Resumable.Proofs.Machine.Conduct
import Resumable.Proofs.Machine.States

/-! Regions beside the parts of a route that they are the fronts of: what a region holds while it
runs, and what it keeps where it suspends. -/

namespace Resumable

/-- A region of an analysis with the route from its start on. -/
structure Analysis.Part (analysis : Analysis) (body : Body) (route : Route) (id : RegionId)
    (region : Region) (tail : Route) (context behind : Context) : Prop where
  present : analysis.region? id = some region
  start : region.start ∈ analysis.starts
  number : analysis.starts.idxOf region.start = id
  inside : tail ∈ route.tails
  covers : Region.Covers analysis.starts tail id region
  live : ∀ var, var ∈ region.liveIn ↔ tail.Needs var
  leads : Route.Leads context tail behind
  older : context.Sound
  entry : id = 0 → ∀ var ∈ context.known, var ∈ body.params

section Parts

variable {body : Body} {analysis : Analysis} {settings : Settings} {function : Function}
  {infos : List Variable} {s' : Stmt} {route tail : Route} {id : RegionId} {region : Region}
  {context behind : Context}

theorem Analysis.Covers.first (covers : analysis.Covers body settings route) {e : NodeId}
    (starts : route.first? = some e) : e ∈ analysis.starts ∧ analysis.starts.idxOf e = 0 := by
  have first := covers.splits.first
  rw [starts] at first
  obtain ⟨rest, shape⟩ := List.head?_eq_some_iff.mp first
  rw [shape]
  exact ⟨List.mem_cons_self, List.idxOf_cons_self⟩

theorem Body.Built.part (built : body.Built function infos s' route)
    (covers : analysis.Covers body settings route) (inside : tail ∈ route.tails) {e : NodeId}
    (starts : tail.first? = some e) (member : e ∈ analysis.starts) :
    ∃ region context behind, analysis.Part body route (analysis.starts.idxOf e) region tail context
      behind := by
  obtain ⟨before, behind, sound, params, leads⟩ := built.leads
  obtain ⟨region, present, covered⟩ := covers.splits.covers tail inside e starts member
  have live := covers.live tail inside e member starts region present
  obtain rfl := Option.some.inj (starts.symm.trans covered.start)
  by_cases first : route.first? = some region.start
  · have same := Route.tail_eq_of_first? built.distinct inside
      (Route.self_mem_tails built.some_) starts first
    subst same
    exact ⟨region, before, behind, present, member, rfl, inside, covered, live, leads, sound,
      fun _ => params⟩
  · obtain ⟨context, older, leadsOn⟩ := leads.of_mem_tails sound inside
    refine ⟨region, context, behind, present, member, rfl, inside, covered, live, leadsOn, older,
      fun zero => ?_⟩
    obtain ⟨e', start⟩ := Option.ne_none_iff_exists'.mp (mt Route.first?_eq_none.mp built.some_)
    obtain ⟨_, zero'⟩ := covers.first start
    have same := Region.idxOf_inj member (zero.trans zero'.symm)
    exact absurd (same ▸ start) first

theorem Body.Built.part_of_region (built : body.Built function infos s' route)
    (covers : analysis.Covers body settings route) (present : analysis.region? id = some region) :
    ∃ tail context behind, analysis.Part body route id region tail context behind := by
  obtain ⟨tail, inside, e, member, starts, rfl, _⟩ := covers.splits.exists_tail present
  obtain ⟨region', context, behind, part⟩ := built.part covers inside starts member
  obtain rfl := Option.some.inj (present.symm.trans part.present)
  exact ⟨tail, context, behind, part⟩

/-- The region that the machine goes on with behind a suspension. -/
theorem Analysis.Part.next (part : analysis.Part body route id region tail context behind)
    (built : body.Built function infos s' route) (covers : analysis.Covers body settings route)
    {halt : Halt} (halts : halt ∈ tail.halts) {e : NodeId} (starts : halt.rest.first? = some e) :
    ∃ next context' behind', analysis.Part body route (analysis.starts.idxOf e) next halt.rest
      context' behind' := by
  have some_ : halt.rest ≠ .stop := fun empty => by
    rw [empty] at starts
    cases starts
  exact built.part covers (Route.tails_trans part.inside (Route.rest_mem_tails halts some_)) starts
    (covers.splits.closed tail part.inside region.start part.covers.start part.start halt halts e
      starts)

theorem Analysis.Part.later (part : analysis.Part body route id region tail context behind)
    (built : body.Built function infos s' route) (covers : analysis.Covers body settings route)
    {halt : Halt} (halts : halt ∈ tail.halts) {e : NodeId} (starts : halt.rest.first? = some e) :
    analysis.starts.idxOf e ≠ 0 := by
  intro zero
  obtain ⟨first, start⟩ := Option.ne_none_iff_exists'.mp (mt Route.first?_eq_none.mp built.some_)
  obtain ⟨member, zero'⟩ := covers.first start
  obtain rfl := Region.idxOf_inj member (zero'.trans zero.symm)
  have some_ : halt.rest ≠ .stop := fun empty => by
    rw [empty] at starts
    cases starts
  have inside := Route.tails_trans part.inside (Route.rest_mem_tails halts some_)
  have same := Route.tail_eq_of_first? built.distinct inside (Route.self_mem_tails built.some_) starts
    start
  have shorter := Route.halt_rest_shorter halts
  have whole := (Route.sites_sublist_of_mem_tails part.inside).length_le
  rw [same] at shorter
  exact absurd shorter (Nat.not_lt_of_le whole)

theorem Analysis.Part.stored_at_entry
    (part : analysis.Part body route id region tail context behind)
    (built : body.Built function infos s' route) (covers : analysis.Covers body settings route)
    {halt : Halt} (halts : halt ∈ tail.halts) {var : VarId} (needs : halt.rest.Needs var) :
    ((analysis.regions.drop 1).any fun region => region.liveIn.contains var) = true := by
  cases starts : halt.rest.first? with
  | none =>
      have known := needs.1
      rw [Route.first?_eq_none.mp starts] at known
      cases known
  | some e =>
      obtain ⟨next, _, _, further⟩ := part.next built covers halts starts
      have positive := Nat.pos_of_ne_zero (part.later built covers halts starts)
      have present : (analysis.regions.drop 1)[analysis.starts.idxOf e - 1]? = some next := by
        rw [List.getElem?_drop, Nat.add_sub_cancel' positive]
        exact further.present
      exact List.any_eq_true.mpr ⟨next, List.mem_of_getElem? present,
        VarSet.contains_iff.mpr ((further.live var).mpr needs)⟩

section Held

variable (part : analysis.Part body route id region tail context behind)

/-- What a region holds while it runs: what it needs, and whatever is declared from there on. -/
def Region.holds (region : Region) (size : Nat) (var : VarId) : Bool :=
  decide (size ≤ (var : Nat)) || region.liveIn.contains var

include part

theorem Analysis.Part.holds_old {var : VarId} (known : var ∈ context.known)
    (held : region.holds context.size var = true) : tail.Needs var := by
  rcases Bool.or_eq_true_iff.mp held with newer | live
  · exact absurd (part.older var known) (Nat.not_lt_of_le (of_decide_eq_true newer))
  · exact (part.live var).mp (VarSet.contains_iff.mp live)

theorem Analysis.Part.holds_of_needs {var : VarId} (needs : tail.Needs var) :
    region.holds context.size var = true :=
  Bool.or_eq_true_iff.mpr (.inr (VarSet.contains_iff.mpr ((part.live var).mpr needs)))

theorem Analysis.Part.holds_of_made {site : Site} {var : VarId} (present : site ∈ tail.front)
    (declares : site.declares = some var) : region.holds context.size var = true := by
  have made := Route.mem_makes.mpr ⟨site, Route.front_subset tail present, declares⟩
  exact Bool.or_eq_true_iff.mpr (.inl (decide_eq_true (part.leads.le_of_makes made)))

theorem Analysis.Part.holds_reads :
    ∀ site ∈ tail.front, ∀ var ∈ site.reads, region.holds context.size var = true := by
  intro site present var reads
  by_cases made : ∃ maker ∈ tail.front, maker.declares = some var
  · obtain ⟨maker, inside, declares⟩ := made
    exact part.holds_of_made inside declares
  · exact part.holds_of_needs (Route.needs_of_front part.leads part.older present reads
      fun maker inside declares => made ⟨maker, inside, declares⟩)

theorem Analysis.Part.halt_reads {halt : Halt} (halts : halt ∈ tail.halts) :
    halt.site.reads ⊆ halt.site.known.filter (region.holds context.size) := by
  intro var reads
  have inside := Route.halt_mem_front halts
  obtain ⟨_, within⟩ := part.leads.within_of_mem (Route.front_subset tail inside)
  exact List.mem_filter.mpr ⟨within.reads var reads, part.holds_reads _ inside var reads⟩

theorem Analysis.Part.holds_behind {halt : Halt} (halts : halt ∈ tail.halts) {var : VarId}
    (needs : halt.rest.Needs var) : region.holds context.size var = true := by
  by_cases made : ∃ maker ∈ tail.front, maker.declares = some var
  · obtain ⟨maker, inside, declares⟩ := made
    exact part.holds_of_made inside declares
  · exact part.holds_of_needs (Route.needs_of_halt part.leads part.older halts needs
      fun maker inside declares => made ⟨maker, inside, declares⟩)

variable (built : body.Built function infos s' route)

include built

theorem Analysis.Part.fits : tail.Fits body.symbols := built.fits.of_mem_tails part.inside

theorem Analysis.Part.halt_fits {halt : Halt} (halts : halt ∈ tail.halts) :
    halt.site.Fits body.symbols ∧ halt.site.declares = none ∧
      halt.payload.Fits body.symbols halt.site.reads ∧ halt.rest.Fits body.symbols :=
  (part.fits built).of_mem_tails (Route.halt_mem_tails halts)

theorem Analysis.Part.known_behind {halt : Halt} (halts : halt ∈ tail.halts) {var : VarId}
    (needs : halt.rest.Needs var) :
    var ∈ halt.site.known.filter (region.holds context.size) := by
  have known := needs.known (part.leads.halt part.older halts)
  rw [after_eq (part.halt_fits built halts).2.1] at known
  exact List.mem_filter.mpr ⟨known, part.holds_behind halts needs⟩

theorem Analysis.Part.payload_eval {halt : Halt} (halts : halt ∈ tail.halts) {left right : Env}
    (shared : Shared body.symbols (halt.site.known.filter (region.holds context.size)) left right) :
    halt.payload.untyped.eval left = halt.payload.eval right := by
  rw [halt.payload.eval_untyped]
  exact (shared.eval (part.halt_fits built halts).2.2.1 (part.halt_reads halts)).symm

variable (covers : analysis.Covers body settings route)

include covers

theorem Analysis.Part.mem_liveAfter {halt : Halt} (halts : halt ∈ tail.halts) (var : VarId) :
    (∃ live, analysis.liveAfter? region halt.site.id = some live ∧ var ∈ live) ↔
      halt.rest.Needs var := by
  rw [Analysis.liveAfter?, part.covers.exits halt halts, Route.target]
  cases starts : halt.rest.first? with
  | none =>
      rw [Route.first?_eq_none.mp starts]
      constructor
      · rintro ⟨_, impossible, _⟩
        cases impossible
      · exact fun needs => absurd needs.1 List.not_mem_nil
  | some e =>
      obtain ⟨next, _, _, further⟩ := part.next built covers halts starts
      simp only [further.present, Option.map_some, Option.some.injEq, exists_eq_left']
      exact further.live var

theorem Analysis.Part.mem_kept {halt : Halt} (halts : halt ∈ tail.halts) {info : Variable} :
    info ∈ region.kept body analysis halt.site ↔
      body.symbols.variables.get? info.id = some info ∧ halt.rest.Needs info.id ∧
        (analysis.persistImmutable = true ∨ info.mutable = true ∨ info.id ∈ region.declared) := by
  have live := part.mem_liveAfter built covers halts info.id
  have must : analysis.mustStore region halt.site.id info = true ↔ halt.rest.Needs info.id ∧
      (analysis.persistImmutable = true ∨ info.mutable = true ∨ info.id ∈ region.declared) := by
    rw [Analysis.mustStore, ← live]
    cases analysis.liveAfter? region halt.site.id with
    | none => simp
    | some set => simp [or_assoc]
  rw [Region.mem_kept built.sound, must]
  constructor
  · rintro ⟨_, found, kept⟩
    exact ⟨found, kept⟩
  · rintro ⟨found, needs, kept⟩
    have known := List.mem_of_mem_filter (part.known_behind built halts needs)
    exact ⟨(part.halt_fits built halts).1.seen _ known, found, needs, kept⟩

theorem Analysis.Part.kept_values {halt : Halt} (halts : halt ∈ tail.halts) {left right : Env}
    (shared : Shared body.symbols (halt.site.known.filter (region.holds context.size)) left right) :
    ∀ info ∈ region.kept body analysis halt.site, ∃ value,
      left.get? info.localName = some value ∧ right.get? info.localName = some value := by
  intro info member
  obtain ⟨found, needs, _⟩ := (part.mem_kept built covers halts).mp member
  exact shared.values (part.known_behind built halts needs) ⟨info, found, rfl⟩

end Held

end Parts
end Resumable
