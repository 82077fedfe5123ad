import Mathlib.Tactic.Tauto
import Resumable.Proofs.Outcome
import Resumable.Proofs.Region.Discovery
import Resumable.Region.Liveness

/-! What the regions of a route need from before them: whatever the rest of the route refers to and
does not declare itself. -/

namespace Resumable

namespace Route

/-- A variable that a route refers to and does not declare. -/
def Needs (route : Route) (var : VarId) : Prop := var ∈ route.mentions ∧ var ∉ route.makes

theorem halt_sites_subset {route : Route} {halt : Halt} (present : halt ∈ route.halts) :
    halt.rest.sites ⊆ route.sites := by
  have inside := (sites_sublist_of_mem_tails (halt_mem_tails present)).subset
  exact fun site member => inside (List.mem_cons_of_mem _ member)

theorem halt_rest_shorter {route : Route} {halt : Halt} (present : halt ∈ route.halts) :
    halt.rest.sites.length < route.sites.length := by
  induction route generalizing halt with
  | stop => cases present
  | plain _ _ rest ih =>
      have inside := ih present
      simp only [sites, List.length_cons]
      omega
  | suspend _ _ rest _ =>
      have equal := List.mem_singleton.mp present
      subst equal
      exact Nat.lt_succ_self _
  | branch _ _ thenRoute elseRoute rest thenIH elseIH ih =>
      simp only [halts, List.mem_append, List.mem_map] at present
      simp only [sites, List.length_cons, List.length_append]
      rcases present with ⟨inner, within, rfl⟩ | ⟨inner, within, rfl⟩ | within
      · have inside := thenIH within
        simp only [Halt.followedBy, sites_append, List.length_append]
        omega
      · have inside := elseIH within
        simp only [Halt.followedBy, sites_append, List.length_append]
        omega
      · split at within
        · have inside := ih within
          omega
        · cases within

section Needs

variable {before behind : Context} {route : Route} {var : VarId}

theorem Needs.known (needs : route.Needs var) (leads : Leads before route behind) :
    var ∈ before.known :=
  leads.known_of_mentions needs.1 needs.2

theorem not_makes (leads : Leads before route behind) (sound : before.Sound)
    (known : var ∈ before.known) : var ∉ route.makes := by
  intro made
  exact absurd (sound var known) (Nat.not_lt_of_le (leads.le_of_makes made))

theorem needs_of_front (leads : Leads before route behind) (sound : before.Sound) {site : Site}
    (present : site ∈ route.front) (reads : var ∈ site.reads)
    (notMade : ∀ maker ∈ route.front, maker.declares ≠ some var) : route.Needs var := by
  have inside := front_subset route present
  obtain ⟨_, within⟩ := leads.within_of_mem inside
  have known := leads.known_before present (within.reads var reads) notMade
  exact ⟨mem_mentions.mpr ⟨site, inside, reads⟩, not_makes leads sound known⟩

theorem Leads.halt (leads : Leads before route behind) (sound : before.Sound) {halt : Halt}
    (present : halt ∈ route.halts) : Leads halt.site.after halt.rest behind := by
  obtain ⟨context, _, inside⟩ := leads.of_mem_tails sound (halt_mem_tails present)
  exact inside.2

theorem needs_of_halt (leads : Leads before route behind) (sound : before.Sound) {halt : Halt}
    (present : halt ∈ route.halts) (needs : halt.rest.Needs var)
    (notMade : ∀ maker ∈ route.front, maker.declares ≠ some var) : route.Needs var := by
  have inside := halt_mem_front present
  have known := needs.known (leads.halt sound present)
  rcases List.mem_append.mp known with made | old
  · exact absurd (Option.mem_toList.mp made) (notMade halt.site inside)
  · obtain ⟨site, further, reads⟩ := mem_mentions.mp needs.1
    exact ⟨mem_mentions.mpr ⟨site, halt_sites_subset present further, reads⟩,
      not_makes leads sound (leads.known_before inside old notMade)⟩

/-- What is needed is referred to before the next suspension or needed behind it. -/
theorem Needs.cases (needs : route.Needs var) :
    (∃ site ∈ route.front, var ∈ site.reads) ∨ ∃ halt ∈ route.halts, halt.rest.Needs var := by
  obtain ⟨site, present, reads⟩ := mem_mentions.mp needs.1
  rcases mem_front_or_rest present with early | ⟨halt, found, late⟩
  · exact .inl ⟨site, early, reads⟩
  · refine .inr ⟨halt, found, mem_mentions.mpr ⟨site, late, reads⟩, fun made => needs.2 ?_⟩
    obtain ⟨maker, inside, declares⟩ := mem_makes.mp made
    exact mem_makes.mpr ⟨maker, halt_sites_subset found inside, declares⟩

theorem Needs.not_declared (needs : route.Needs var) {maker : Site}
    (present : maker ∈ route.front) : maker.declares ≠ some var :=
  fun declares => needs.2 (mem_makes.mpr ⟨maker, front_subset route present, declares⟩)

end Needs
end Route

namespace VarSet

theorem mem_unionAll {sets : List VarSet} {var : VarId} :
    var ∈ unionAll sets ↔ ∃ set ∈ sets, var ∈ set := by
  have all : ∀ (sets : List VarSet) (start : VarSet),
      var ∈ sets.foldl union start ↔ var ∈ start ∨ ∃ set ∈ sets, var ∈ set := by
    intro sets
    induction sets with
    | nil => simp
    | cons head rest ih => simp [ih, or_assoc]
  have none_ : var ∉ empty := by simp [empty, mem_iff]
  simp [unionAll, all, none_]

end VarSet

namespace Region

def Has (live : List VarSet) (id : RegionId) (var : VarId) : Prop :=
  ∃ set, live[id]? = some set ∧ var ∈ set

def Numbered (regions : List Region) : Prop :=
  ∀ (id : RegionId) (region : Region), regions[id]? = some region → region.id = id

section Settle

variable {regions : List Region} {vars : List VarId} {live : List VarSet} {id : RegionId}
  {var : VarId}

theorem mem_gained : var ∈ gained regions vars live id ↔ ∃ region, regions[id]? = some region ∧
    (∃ set, live[id]? = some set ∧ var ∉ set) ∧ var ∈ vars ∧ var ∉ region.declared ∧
      ∃ next ∈ region.continuations, Has live next var := by
  unfold gained
  split
  · rename_i region set present present'
    simp only [List.mem_filter, Bool.and_eq_true, Bool.not_eq_true', List.any_eq_true,
      Option.any_eq_true, Bool.eq_false_iff, ne_eq, VarSet.contains_iff, present, present',
      Option.some.injEq, exists_eq_left', Has]
    tauto
  · rename_i none_
    simp only [List.not_mem_nil, false_iff]
    rintro ⟨region, present, ⟨set, present', _⟩, _⟩
    exact none_ region set present present'

theorem has_modify {more : List VarId} {other : RegionId} :
    Has (live.modify id (·.addAll more)) other var ↔
      Has live other var ∨ (other = id ∧ var ∈ more ∧ other < live.length) := by
  unfold Has
  rw [List.getElem?_modify]
  cases present : live[other]? with
  | none =>
      have outside := List.getElem?_eq_none_iff.mp present
      simp [Nat.not_lt_of_le outside]
  | some set =>
      obtain ⟨inside, _⟩ := List.getElem?_eq_some_iff.mp present
      by_cases same : id = other
      · simp [same, inside]
      · have apart : other ≠ id := fun equal => same equal.symm
        simp [same, apart]

theorem settle_grows (worklist : List RegionId) (rounds : Nat) (has : Has live id var) :
    Has (settle regions vars live worklist rounds).1 id var := by
  fun_induction settle regions vars live worklist rounds with
  | case1 => exact has
  | case2 _ _ _ _ _ ih => exact ih has
  | case3 _ _ _ _ _ ih => exact ih (has_modify.mpr (.inl has))

/-- What holds of every member at first, and of a region where it holds of one of its continuations,
holds of every member in the end. -/
theorem settle_sound {P : RegionId → VarId → Prop} (worklist : List RegionId) (rounds : Nat)
    (back : ∀ id region var, regions[id]? = some region → var ∉ region.declared →
      ∀ next ∈ region.continuations, P next var → P id var)
    (first : ∀ id var, Has live id var → P id var)
    (has : Has (settle regions vars live worklist rounds).1 id var) : P id var := by
  fun_induction settle regions vars live worklist rounds with
  | case1 => exact first id var has
  | case2 _ _ _ _ _ ih => exact ih first has
  | case3 live head _ _ _ ih =>
      refine ih (fun id var has => ?_) has
      rcases has_modify.mp has with old | ⟨rfl, gains, _⟩
      · exact first id var old
      · obtain ⟨region, present, _, _, outside, next, continues, there⟩ := mem_gained.mp gains
        exact back id region var present outside next continues (first next var there)

theorem settle_length (worklist : List RegionId) (rounds : Nat) :
    (settle regions vars live worklist rounds).1.length = live.length := by
  fun_induction settle regions vars live worklist rounds with
  | case1 => rfl
  | case2 _ _ _ _ _ ih => exact ih
  | case3 _ _ _ _ _ ih => rw [ih, List.length_modify]

theorem liveSets_length (regions : List Region) :
    (liveSets regions).1.length = regions.length := by
  rw [liveSets, settle_length, List.length_map]

theorem mem_regionsInto {region : Region} {other : RegionId} (numbered : region.id = other)
    (present : regions[other]? = some region) (continues : id ∈ region.continuations) :
    other ∈ regionsInto regions id := by
  refine List.mem_map.mpr ⟨region, List.mem_filter.mpr ⟨List.mem_of_getElem? present, ?_⟩, numbered⟩
  simpa using continues

/-- Once its gain is added to a region, only regions that continue in it can gain more than before.
-/
theorem gained_modify (numbered : Numbered regions)
    {other : RegionId}
    (gains : var ∈ gained regions vars (live.modify id (·.addAll (gained regions vars live id))) other) :
    other ≠ id ∧ (var ∈ gained regions vars live other ∨ other ∈ regionsInto regions id) := by
  obtain ⟨region, present, ⟨set, there, missing⟩, listed, outside, next, continues, has⟩ :=
    mem_gained.mp gains
  have lacks : ¬ Has (live.modify id (·.addAll (gained regions vars live id))) other var := by
    rintro ⟨set', there', member⟩
    rw [there, Option.some.injEq] at there'
    exact missing (there' ▸ member)
  rw [has_modify, not_or] at lacks
  have inside : other < live.length := by
    have bound := (List.getElem?_eq_some_iff.mp there).1
    rwa [List.length_modify] at bound
  have before : Has live next var → var ∈ gained regions vars live other := by
    intro has
    refine mem_gained.mpr ⟨region, present, ⟨_, List.getElem?_eq_getElem inside, fun member => ?_⟩,
      listed, outside, next, continues, has⟩
    exact lacks.1 ⟨_, List.getElem?_eq_getElem inside, member⟩
  have apart : other ≠ id := by
    rintro rfl
    rcases has_modify.mp has with old | ⟨rfl, gain, below⟩
    · exact lacks.2 ⟨rfl, before old, inside⟩
    · exact lacks.2 ⟨rfl, gain, below⟩
  refine ⟨apart, ?_⟩
  rcases has_modify.mp has with old | ⟨rfl, _⟩
  · exact .inl (before old)
  · exact .inr (mem_regionsInto (numbered other region present) present continues)

theorem settle_closed (worklist : List RegionId) (rounds : Nat)
    (numbered : Numbered regions)
    (listed : ∀ id var, var ∈ gained regions vars live id → id ∈ worklist) :
    ∀ id var, var ∉ gained regions vars (settle regions vars live worklist rounds).1 id := by
  fun_induction settle regions vars live worklist rounds with
  | case1 =>
      intro id var gains
      cases listed id var gains
  | case2 live rounds id rest none_ ih =>
      refine ih fun other var gains => ?_
      rcases List.mem_cons.mp (listed other var gains) with rfl | later
      · rw [none_] at gains
        cases gains
      · exact later
  | case3 live rounds id rest some_ ih =>
      refine ih fun other var gains => ?_
      obtain ⟨apart, before | into⟩ := gained_modify numbered gains
      · rcases List.mem_cons.mp (listed other var before) with same | later
        · exact absurd same apart
        · exact List.mem_append_left _ later
      · by_cases known : other ∈ rest
        · exact List.mem_append_left _ known
        · refine List.mem_append_right _ (List.mem_filter.mpr ⟨into, ?_⟩)
          simpa using known

theorem liveSets_closed (numbered : Numbered regions) (id : RegionId) (var : VarId) :
    var ∉ gained regions (mentioned regions) (liveSets regions).1 id := by
  apply settle_closed (List.range regions.length).reverse 0 numbered
  intro id var gains
  obtain ⟨_, there, _⟩ := mem_gained.mp gains
  simpa using (List.getElem?_eq_some_iff.mp there).1

/-- The initial sets: what a region refers to and does not declare. -/
def ownNeeds (regions : List Region) : List VarSet :=
  regions.map fun region => region.referenced.diff region.declared

theorem has_ownNeeds {id : Nat} {var : VarId} : Has (ownNeeds regions) id var ↔
    ∃ region, regions[id]? = some region ∧ var ∈ region.referenced ∧ var ∉ region.declared := by
  simp only [Has, ownNeeds, List.getElem?_map, Option.map_eq_some_iff, exists_exists_and_eq_and,
    VarSet.mem_diff]

end Settle

section Splits

variable {route : Route} {regions : List Region} {starts : List NodeId} {before behind : Context}

theorem Splits.numbered (splits : Splits route regions starts) : Numbered regions := by
  intro id region present
  obtain ⟨inside, _⟩ := List.getElem?_eq_some_iff.mp present
  have inside' : id < starts.length := splits.length ▸ inside
  obtain ⟨tail, member, entry⟩ := exists_tail (splits.inside (List.getElem_mem inside'))
  obtain ⟨other, there, covers⟩ := splits.covers tail member _ entry (List.getElem_mem inside')
  have number : starts.idxOf starts[id] = id := splits.distinct.idxOf_getElem id inside'
  rw [number] at there covers
  rw [present, Option.some.injEq] at there
  exact there ▸ covers.id

theorem Splits.exists_tail (splits : Splits route regions starts) {id : Nat} {region : Region}
    (present : regions[id]? = some region) : ∃ tail ∈ route.tails, ∃ e ∈ starts,
      tail.first? = some e ∧ starts.idxOf e = id ∧ Covers starts tail id region := by
  obtain ⟨inside, _⟩ := List.getElem?_eq_some_iff.mp present
  have inside' : id < starts.length := splits.length ▸ inside
  obtain ⟨tail, member, entry⟩ := Region.exists_tail (splits.inside (List.getElem_mem inside'))
  obtain ⟨other, there, covers⟩ := splits.covers tail member _ entry (List.getElem_mem inside')
  have number : starts.idxOf starts[id] = id := splits.distinct.idxOf_getElem id inside'
  rw [number] at there covers
  rw [present, Option.some.injEq] at there
  exact ⟨tail, member, _, List.getElem_mem inside', entry, number, there ▸ covers⟩

theorem idxOf_inj {e e' : NodeId} (member : e ∈ starts) (same : starts.idxOf e = starts.idxOf e') :
    e = e' := (List.idxOf_inj member).mp same

variable (leads : Route.Leads before route behind)
  (sound : before.Sound) (splits : Splits route regions starts)

include leads sound splits in
theorem needs_of_live {id : RegionId} {var : VarId} (has : Has (liveSets regions).1 id var) :
    ∀ tail ∈ route.tails, ∀ e ∈ starts, tail.first? = some e → starts.idxOf e = id →
      tail.Needs var := by
  refine settle_sound (P := fun id var => ∀ tail ∈ route.tails, ∀ e ∈ starts,
    tail.first? = some e → starts.idxOf e = id → tail.Needs var) _ _ ?_ ?_ has
  · intro id region var present outside next continues inNext tail inside e member entry number
    obtain ⟨region', there, covers⟩ := splits.covers tail inside e entry member
    rw [number, present, Option.some.injEq] at there
    subst there
    obtain ⟨context, sound', leads'⟩ := leads.of_mem_tails sound inside
    obtain ⟨halt, found, e', entry', rfl⟩ := (covers.continuations next).mp continues
    have some_ : halt.rest ≠ .stop := fun empty => by
      rw [empty] at entry'
      cases entry'
    have later := Route.tails_trans inside (Route.rest_mem_tails found some_)
    have needs := inNext halt.rest later e' (splits.closed tail inside e entry member halt found e'
      entry') entry' rfl
    refine Route.needs_of_halt leads' sound' found needs fun maker here declares => outside ?_
    exact (covers.declared var).mpr ⟨maker, here, declares⟩
  · intro id var own tail inside e member entry number
    obtain ⟨region, present, referenced, outside⟩ := has_ownNeeds.mp own
    obtain ⟨region', there, covers⟩ := splits.covers tail inside e entry member
    rw [number, present, Option.some.injEq] at there
    subst there
    obtain ⟨context, sound', leads'⟩ := leads.of_mem_tails sound inside
    obtain ⟨site, here, reads⟩ := (covers.referenced var).mp referenced
    refine Route.needs_of_front leads' sound' here reads fun maker here declares => outside ?_
    exact (covers.declared var).mpr ⟨maker, here, declares⟩

include splits in
theorem live_of_needs {var : VarId} (tail : Route) (inside : tail ∈ route.tails) {e : NodeId}
    (member : e ∈ starts) (entry : tail.first? = some e) (needs : tail.Needs var) :
    var ∈ mentioned regions ∧ Has (liveSets regions).1 (starts.idxOf e) var := by
  obtain ⟨region, present, covers⟩ := splits.covers tail inside e entry member
  have outside : var ∉ region.declared := by
    intro declared
    obtain ⟨maker, here, declares⟩ := (covers.declared var).mp declared
    exact needs.not_declared here declares
  rcases needs.cases with ⟨site, here, reads⟩ | ⟨halt, found, later⟩
  · have referenced := (covers.referenced var).mpr ⟨site, here, reads⟩
    refine ⟨VarSet.mem_unionAll.mpr ⟨_, List.mem_map_of_mem (List.mem_of_getElem? present),
      referenced⟩, ?_⟩
    exact settle_grows _ _ (has_ownNeeds.mpr ⟨region, present, referenced, outside⟩)
  · have some_ : halt.rest ≠ .stop := by
      intro empty
      rw [empty] at later
      simpa [Route.mentions, Route.sites] using later.1
    obtain ⟨e', entry'⟩ := Option.ne_none_iff_exists'.mp (mt Route.first?_eq_none.mp some_)
    have shorter := Route.halt_rest_shorter found
    obtain ⟨known, there⟩ := live_of_needs halt.rest
      (Route.tails_trans inside (Route.rest_mem_tails found some_))
      (splits.closed tail inside e entry member halt found e' entry') entry' later
    refine ⟨known, ?_⟩
    by_contra lacks
    have below : starts.idxOf e < (liveSets regions).1.length := by
      rw [liveSets_length]
      exact (List.getElem?_eq_some_iff.mp present).1
    refine liveSets_closed splits.numbered (starts.idxOf e) var (mem_gained.mpr ⟨region, present,
      ⟨_, List.getElem?_eq_getElem below, fun member => ?_⟩, known, outside, _,
      (covers.continuations _).mpr ⟨halt, found, e', entry', rfl⟩, there⟩)
    exact lacks ⟨_, List.getElem?_eq_getElem below, member⟩
termination_by tail.sites.length

end Splits
end Region

/-- An analysis whose regions split a route and need what their parts of it need. -/
structure Analysis.Covers (analysis : Analysis) (body : Body) (settings : Settings) (route : Route) :
    Prop where
  splits : Region.Splits route analysis.regions analysis.starts
  live : ∀ tail ∈ route.tails, ∀ e ∈ analysis.starts, tail.first? = some e → ∀ region,
    analysis.region? (analysis.starts.idxOf e) = some region →
      ∀ var, var ∈ region.liveIn ↔ tail.Needs var
  entryStores : analysis.entryStores = body.params.filter fun param =>
    (analysis.regions.drop 1).any (·.liveIn.contains param)
  persistImmutable : analysis.persistImmutable = settings.persistImmutable

theorem Region.Covers.withLiveness {starts : List NodeId} {route : Route} {id : RegionId}
    {region : Region} (covers : Covers starts route id region) (liveIn liveOut : VarSet) :
    Covers starts route id { region with liveIn, liveOut } :=
  ⟨covers.id, covers.start, covers.referenced, covers.declared, covers.exits, covers.continuations⟩

theorem Region.withLiveness_get? {regions : List Region} {id : RegionId} {region : Region}
    (present : regions[id]? = some region) : (withLiveness regions).1[id]? = some { region with
      liveIn := (liveSets regions).1.getD region.id .empty
      liveOut := liveOutOf (liveSets regions).1 region } := by
  rw [withLiveness, List.getElem?_map, present]
  rfl

theorem Region.mem_getD {live : List VarSet} {id : RegionId} {var : VarId} :
    var ∈ live.getD id .empty ↔ Has live id var := by
  rw [List.getD_eq_getElem?_getD]
  cases present : live[id]? with
  | none => simp [Has, present, VarSet.empty, VarSet.mem_iff]
  | some set => simp [Has, present]

namespace Region

variable {route : Route} {regions : List Region} {starts : List NodeId} {before behind : Context}

theorem Splits.withLiveness (splits : Splits route regions starts) :
    Splits route (withLiveness regions).1 starts := by
  refine ⟨splits.distinct, splits.first, splits.inside, ?_, ?_, splits.closed⟩
  · rw [← splits.length]
    exact List.length_map _
  · intro tail inside e starts? member
    obtain ⟨region, present, covers⟩ := splits.covers tail inside e starts? member
    exact ⟨_, withLiveness_get? present, covers.withLiveness _ _⟩

theorem Splits.live (splits : Splits route regions starts) (leads : Route.Leads before route behind)
    (sound : before.Sound) (tail : Route) (inside : tail ∈ route.tails) (e : NodeId)
    (member : e ∈ starts) (starts? : tail.first? = some e) (region : Region)
    (present : (Region.withLiveness regions).1[starts.idxOf e]? = some region) (var : VarId) :
    var ∈ region.liveIn ↔ tail.Needs var := by
  obtain ⟨region', present', covers⟩ := splits.covers tail inside e starts? member
  have same := present.symm.trans (withLiveness_get? present')
  rw [Option.some.injEq] at same
  subst same
  rw [mem_getD, covers.id]
  constructor
  · intro live
    exact needs_of_live leads sound splits live tail inside e member starts? rfl
  · intro needs
    exact (live_of_needs splits tail inside member starts? needs).2

end Region

/-- The analysis of a graph in which a route lies never fails. -/
theorem Body.analyze_covers {body : Body} (settings : Settings) {route : Route}
    {before behind : Context} (laid : Route.Laid body.graph none route)
    (entry : body.graph.head = route.first?) (some_ : route ≠ .stop)
    (leads : Route.Leads before route behind) (sound : before.Sound) :
    ∃ analysis, body.analyze settings = .ok analysis ∧ analysis.Covers body settings route := by
  obtain ⟨head, start⟩ := Option.ne_none_iff_exists'.mp (mt Route.first?_eq_none.mp some_)
  obtain ⟨regions, starts, found, splits⟩ := Region.discover_splits laid start
  rw [Body.analyze, entry, start]
  simp only [found]
  refine ⟨_, rfl, ⟨?_, ?_, rfl, rfl⟩⟩ <;> rw [Analysis.starts, List.zipIdx_map_fst]
  · exact splits.withLiveness
  · exact splits.live leads sound

end Resumable
