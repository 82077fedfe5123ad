import Resumable.Proofs.Region.Coherence
import Resumable.Proofs.Region.Liveness

/-! The worklist settles the regions of any graph. What it comes to is the least solution of the
equations of the regions, however these continue in each other. -/

namespace Resumable

/-- What a region needs from before it, where its continuations need the given variables. -/
def Region.Asks (region : Region) (live : RegionId → VarId → Prop) (var : VarId) : Prop :=
  (var ∈ region.referenced ∨ ∃ next ∈ region.continuations, live next var) ∧ var ∉ region.declared

/-- The variables that an analysis has as needed by the region of a number. -/
def Analysis.Needed (analysis : Analysis) (id : RegionId) (var : VarId) : Prop :=
  ∃ region, analysis.region? id = some region ∧ var ∈ region.liveIn

/-- A region as it is before its liveness is known. -/
def Region.unsettled (region : Region) : Region :=
  { region with liveIn := .empty, liveOut := .empty }

namespace Region

variable {regions : List Region} {vars : List VarId} {live : List VarSet} {id : RegionId}
  {var : VarId}

theorem settle_asked (worklist : List RegionId) (rounds : Nat)
    (asked : ∀ id var, Has live id var →
      ∃ region, regions[id]? = some region ∧ region.Asks (Has live) var)
    (has : Has (settle regions vars live worklist rounds).1 id var) :
    ∃ region, regions[id]? = some region ∧
      region.Asks (Has (settle regions vars live worklist rounds).1) var := by
  fun_induction settle regions vars live worklist rounds with
  | case1 live => exact asked id var has
  | case2 _ _ _ _ _ ih => exact ih asked has
  | case3 live _ head _ _ ih =>
      have later : ∀ {next : RegionId} {var : VarId}, Has live next var →
          Has (live.modify head (·.addAll (gained regions vars live head))) next var :=
        fun before => has_modify.mpr (.inl before)
      refine ih (fun id var has => ?_) has
      rcases has_modify.mp has with old | ⟨rfl, gains, _⟩
      · obtain ⟨region, present, wants, outside⟩ := asked id var old
        refine ⟨region, present, wants.imp_right ?_, outside⟩
        rintro ⟨next, continues, there⟩
        exact ⟨next, continues, later there⟩
      · obtain ⟨region, present, _, _, outside, next, continues, there⟩ := mem_gained.mp gains
        exact ⟨region, present, .inr ⟨next, continues, later there⟩, outside⟩

/-- Every step of the worklist takes a region off it, and only a region that gains a variable puts
others back. -/
theorem settle_rounds (worklist : List RegionId) (rounds : Nat) :
    (settle regions vars live worklist rounds).2 ≤
      rounds + worklist.length + missing vars live * regions.length := by
  fun_induction settle regions vars live worklist rounds with
  | case1 => exact Nat.le_trans (Nat.le_add_right _ _) (Nat.le_add_right _ _)
  | case2 live rounds id rest _ ih =>
      rw [List.length_cons]
      omega
  | case3 live rounds id rest gains ih =>
      have less := missing_modify_lt gains
      have back : ((regionsInto regions id).filter fun before => !rest.contains before).length ≤
          regions.length := by
        calc
          _ ≤ (regionsInto regions id).length := List.length_filter_le _ _
          _ = (regions.filter (·.continuations.contains id)).length := List.length_map _
          _ ≤ regions.length := List.length_filter_le _ _
      have product := Nat.mul_le_mul_right regions.length (Nat.succ_le_of_lt less)
      rw [Nat.succ_mul] at product
      rw [List.length_append] at ih
      rw [List.length_cons]
      omega

theorem missing_le (vars : List VarId) (live : List VarSet) :
    missing vars live ≤ live.length * vars.length := by
  induction live with
  | nil => exact Nat.zero_le _
  | cons set rest ih =>
      have head := List.length_filter_le (fun var => !set.contains var) vars
      simp only [missing, List.flatMap_cons, List.length_append, List.length_cons] at ih ⊢
      rw [Nat.succ_mul]
      omega

theorem liveSets_rounds (regions : List Region) : (liveSets regions).2 ≤
    regions.length * (1 + regions.length * (mentioned regions).length) := by
  have bound := @settle_rounds regions (mentioned regions) (ownNeeds regions)
    (List.range regions.length).reverse 0
  have few := missing_le (mentioned regions) (ownNeeds regions)
  have count : (ownNeeds regions).length = regions.length := List.length_map _
  rw [count] at few
  calc
    (liveSets regions).2 ≤ 0 + (List.range regions.length).reverse.length +
        missing (mentioned regions) (ownNeeds regions) * regions.length := bound
    _ ≤ regions.length + regions.length * (mentioned regions).length * regions.length := by
        rw [List.length_reverse, List.length_range, Nat.zero_add]
        exact Nat.add_le_add_left (Nat.mul_le_mul_right _ few) _
    _ = regions.length * (1 + regions.length * (mentioned regions).length) := by
        rw [Nat.mul_add, Nat.mul_one, Nat.mul_comm regions.length (regions.length * _)]

theorem mentioned_of_live (has : Has (liveSets regions).1 id var) : var ∈ mentioned regions := by
  refine settle_sound (P := fun _ var => var ∈ mentioned regions) _ _ ?_ ?_ has
  · intro _ _ _ _ _ _ _ known
    exact known
  · intro id var own
    obtain ⟨region, present, referenced, _⟩ := has_ownNeeds.mp own
    exact VarSet.mem_unionAll.mpr
      ⟨_, List.mem_map_of_mem (List.mem_of_getElem? present), referenced⟩

/-- The sets that the worklist ends with solve the equations of the regions. -/
theorem liveSets_solve (numbered : Numbered regions) {region : Region}
    (present : regions[id]? = some region) (var : VarId) :
    Has (liveSets regions).1 id var ↔ region.Asks (Has (liveSets regions).1) var := by
  constructor
  · intro has
    have first : ∀ id var, Has (ownNeeds regions) id var →
        ∃ region, regions[id]? = some region ∧ region.Asks (Has (ownNeeds regions)) var := by
      intro id var own
      obtain ⟨region, there, referenced, outside⟩ := has_ownNeeds.mp own
      exact ⟨region, there, .inl referenced, outside⟩
    obtain ⟨region', present', asks⟩ := settle_asked _ _ first has
    obtain rfl := Option.some.inj (present.symm.trans present')
    exact asks
  · rintro ⟨referenced | ⟨next, continues, there⟩, outside⟩
    · exact settle_grows _ _ (has_ownNeeds.mpr ⟨region, present, referenced, outside⟩)
    · -- A variable that is still missing would be a gain, and in the end there is none.
      by_contra lacks
      have below : id < (liveSets regions).1.length := by
        rw [liveSets_length]
        exact (List.getElem?_eq_some_iff.mp present).1
      refine liveSets_closed numbered id var (mem_gained.mpr ⟨region, present,
        ⟨_, List.getElem?_eq_getElem below, fun member => ?_⟩, mentioned_of_live there, outside,
        next, continues, there⟩)
      exact lacks ⟨_, List.getElem?_eq_getElem below, member⟩

/-- Every family that has what the regions ask of it has all that the worklist ends with. -/
theorem liveSets_least {other : RegionId → VarId → Prop}
    (closed : ∀ (id : Nat) region, regions[id]? = some region →
      ∀ var, region.Asks other var → other id var)
    (has : Has (liveSets regions).1 id var) : other id var := by
  refine settle_sound (P := other) _ _ ?_ ?_ has
  · intro id region var present outside next continues there
    exact closed id region present var ⟨.inr ⟨next, continues, there⟩, outside⟩
  · intro id var own
    obtain ⟨region, present, referenced, outside⟩ := has_ownNeeds.mp own
    exact closed id region present var ⟨.inl referenced, outside⟩

theorem mem_liveOutOf {region : Region} :
    var ∈ liveOutOf live region ↔ ∃ next ∈ region.continuations, Has live next var := by
  rw [liveOutOf, VarSet.mem_unionAll]
  constructor
  · rintro ⟨set, listed, member⟩
    obtain ⟨next, continues, there⟩ := List.mem_filterMap.mp listed
    exact ⟨next, continues, set, there, member⟩
  · rintro ⟨next, continues, set, there, member⟩
    exact ⟨set, List.mem_filterMap.mpr ⟨next, continues, there⟩, member⟩

theorem Made.numbered {graph : Graph} {head : NodeId} {starts : List NodeId}
    (made : Made graph head regions starts) : Numbered regions := by
  intro id region present
  exact (made.region id region present).1

theorem needed_iff (numbered : Numbered regions) {analysis : Analysis}
    (settled : analysis.regions = (withLiveness regions).1) :
    analysis.Needed id var ↔ Has (liveSets regions).1 id var := by
  rw [Analysis.Needed, Analysis.region?, settled]
  cases present : regions[id]? with
  | none =>
      have beyond := List.getElem?_eq_none_iff.mp present
      have absent : (withLiveness regions).1[id]? = none := by
        rw [withLiveness, List.getElem?_map, present]
        rfl
      have lost : (liveSets regions).1[id]? = none := by
        rw [List.getElem?_eq_none_iff, liveSets_length]
        exact beyond
      simp [absent, Has, lost]
  | some region =>
      rw [withLiveness_get? present]
      simp only [Option.some.injEq, exists_eq_left', mem_getD, numbered id region present]

end Region

/-- Wherever the regions of a graph are discovered, the analysis succeeds and ends. The sets that it
stores solve the equations of the regions, lie in every family that has what the regions ask of it,
and give what is needed behind each region. -/
theorem Body.analyze_least {body : Body} {head : NodeId} {regions : List Region}
    {numbers : List (NodeId × RegionId)} (settings : Settings)
    (start : body.graph.head = some head)
    (discovers : Region.discover body.graph head = .ok (regions, numbers)) :
    ∃ analysis, body.analyze settings = .ok analysis ∧
      analysis.regions.map Region.unsettled = regions.map Region.unsettled ∧
      analysis.rounds ≤ regions.length * (1 + regions.length * (Region.mentioned regions).length) ∧
      (∀ id region, analysis.region? id = some region →
        (∀ var, var ∈ region.liveIn ↔ region.Asks analysis.Needed var) ∧
        ∀ var, var ∈ region.liveOut ↔ ∃ next ∈ region.continuations, analysis.Needed next var) ∧
      ∀ other : RegionId → VarId → Prop,
        (∀ id region, analysis.region? id = some region →
          ∀ var, region.Asks other var → other id var) →
        ∀ id var, analysis.Needed id var → other id var := by
  have succeeds : ∃ analysis, body.analyze settings = .ok analysis := by
    rw [Body.analyze, start]
    simp only [discovers]
    exact ⟨_, rfl⟩
  obtain ⟨analysis, analysed⟩ := succeeds
  obtain ⟨head', regions', start', discovers', settled⟩ := Body.analyze_ok analysed
  obtain rfl := Option.some.inj (start.symm.trans start')
  obtain ⟨rfl, rfl⟩ := Prod.mk.inj (Except.ok.inj (discovers.symm.trans discovers'))
  have sets : analysis.regions = (Region.withLiveness regions).1 := congrArg Prod.fst settled
  have rounds : analysis.rounds = (Region.withLiveness regions).2 := congrArg Prod.snd settled
  obtain ⟨_, _, _, made⟩ := Region.discover_made discovers
  have numbered := made.numbered
  have family : analysis.Needed = Region.Has (Region.liveSets regions).1 := by
    funext id var
    exact propext (Region.needed_iff numbered sets)
  refine ⟨analysis, analysed, ?_, ?_, ?_, ?_⟩
  · rw [sets, Region.withLiveness, List.map_map]
    rfl
  · rw [rounds]
    exact Region.liveSets_rounds regions
  · intro id region present
    rw [Analysis.region?, sets, Region.withLiveness, List.getElem?_map] at present
    obtain ⟨before, there, rfl⟩ := Option.map_eq_some_iff.mp present
    rw [family]
    refine ⟨fun var => ?_, fun var => Region.mem_liveOutOf⟩
    rw [Region.mem_getD, numbered id before there]
    exact Region.liveSets_solve numbered there var
  · intro other closed id var has
    rw [family] at has
    refine Region.liveSets_least (fun id region present var asks => ?_) has
    have there := Region.withLiveness_get? present
    rw [← sets] at there
    exact closed id _ there var asks

theorem Body.analyze_least_knot : ∃ head regions numbers,
    Body.knot.graph.head = some head ∧
    Region.discover Body.knot.graph head = .ok (regions, numbers) ∧
    ∃ analysis, Body.knot.analyze {} = .ok analysis ∧
      analysis.regions.map (fun region => region.liveIn.elems) = [[0, 2], [0, 2], [0, 2]] ∧
      ∀ other : RegionId → VarId → Prop,
        (∀ id region, analysis.region? id = some region →
          ∀ var, region.Asks other var → other id var) →
        ∀ id var, analysis.Needed id var → other id var := by
  have seen : (do
      let _ ← Region.discover Body.knot.graph 0
      let analysis ← Body.knot.analyze {}
      return analysis.regions.map fun region : Region => region.liveIn.elems) =
        .ok [[0, 2], [0, 2], [0, 2]] := by cbv
  obtain ⟨⟨regions, numbers⟩, discovers, seen⟩ := ok_bind seen
  obtain ⟨analysis, analysed, sets⟩ := ok_bind seen
  obtain ⟨analysis', analysed', _, _, _, least⟩ := Body.analyze_least {} rfl discovers
  obtain rfl := Except.ok.inj (analysed.symm.trans analysed')
  exact ⟨0, regions, numbers, rfl, discovers, analysis, analysed, Except.ok.inj sets, least⟩

end Resumable
