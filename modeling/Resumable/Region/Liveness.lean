import Resumable.Region.Discovery

/-! Which variables a region needs from before it. A region needs what its nodes refer to and what
its continuations need, except what it declares itself. -/

namespace Resumable.Region

def regionsInto (regions : List Region) (id : RegionId) : List RegionId :=
  (regions.filter (·.continuations.contains id)).map Region.id

def mentioned (regions : List Region) : List VarId :=
  (VarSet.unionAll (regions.map Region.referenced)).elems

/-- What a region lacks: variables that some continuation needs and that the region does not
declare. -/
def gained (regions : List Region) (vars : List VarId) (live : List VarSet) (id : RegionId) :
    List VarId :=
  match regions[id]?, live[id]? with
  | some region, some set => vars.filter fun var =>
      !set.contains var && !region.declared.contains var &&
        region.continuations.any fun next => (live[next]?).any (·.contains var)
  | _, _ => []

def missing (vars : List VarId) (live : List VarSet) : Nat :=
  (live.flatMap fun set => vars.filter fun var => !set.contains var).length

theorem length_flatMap_modify_lt {α β : Type} (part : α → List β) (change : α → α) {items : List α}
    {index : Nat} {item : α} (present : items[index]? = some item)
    (less : (part (change item)).length < (part item).length) :
    ((items.modify index change).flatMap part).length < (items.flatMap part).length := by
  induction items generalizing index with
  | nil => simp at present
  | cons head rest ih =>
    cases index with
    | zero =>
      have same : head = item := by simpa using present
      subst same
      simpa using less
    | succ index =>
      have step := @ih index (by simpa using present)
      simpa using step

theorem length_filter_addAll_lt {vars more : List VarId} {set : VarSet} {var : VarId}
    (known : var ∈ vars) (added : var ∈ more) (absent : var ∉ set) :
    (vars.filter fun v => !(set.addAll more).contains v).length <
      (vars.filter fun v => !set.contains v).length := by
  have split : (fun v => !(set.addAll more).contains v) =
      fun v => (!more.contains v) && (!set.contains v) := by
    funext v
    have joined : (set.addAll more).contains v = (set.contains v || more.contains v) := by
      rw [Bool.eq_iff_iff]
      simp
    rw [joined]
    simp [Bool.and_comm]
  have member : var ∈ vars.filter fun v => !set.contains v := by
    have missing : set.contains var = false := by
      rw [Bool.eq_false_iff]
      simpa using absent
    simp [known, missing]
  rw [split, ← List.filter_filter]
  exact List.length_filter_lt_length_iff_exists.mpr ⟨var, member, by simp [added]⟩

theorem missing_modify_lt {regions : List Region} {vars : List VarId} {live : List VarSet}
    {id : RegionId} (gains : gained regions vars live id ≠ []) :
    missing vars (live.modify id (·.addAll (gained regions vars live id))) < missing vars live := by
  obtain ⟨var, added⟩ := List.exists_mem_of_ne_nil _ gains
  have origin := added
  unfold gained at origin
  split at origin
  · rename_i region set _ present
    simp only [List.mem_filter, Bool.and_eq_true, Bool.not_eq_true'] at origin
    obtain ⟨known, ⟨absent, _⟩, _⟩ := origin
    refine length_flatMap_modify_lt _ _ present (length_filter_addAll_lt known added ?_)
    intro member
    simp [VarSet.contains_iff.mpr member] at absent
  · simp at origin

/-- Settles the regions of the worklist one by one. A region that gains variables puts the regions
that continue in it back on the list. -/
def settle (regions : List Region) (vars : List VarId) (live : List VarSet)
    (worklist : List RegionId) (rounds : Nat) : List VarSet × Nat :=
  match worklist with
  | [] => (live, rounds)
  | id :: rest =>
    if _same : gained regions vars live id = [] then settle regions vars live rest (rounds + 1)
    else
      settle regions vars (live.modify id (·.addAll (gained regions vars live id)))
        (rest ++ (regionsInto regions id).filter fun before => !rest.contains before) (rounds + 1)
termination_by (missing vars live, worklist.length)
decreasing_by
  · right; simp
  · left; exact missing_modify_lt _same

def liveSets (regions : List Region) : List VarSet × Nat :=
  settle regions (mentioned regions)
    (regions.map fun region => region.referenced.diff region.declared)
    (List.range regions.length).reverse 0

def liveOutOf (live : List VarSet) (region : Region) : VarSet :=
  .unionAll (region.continuations.filterMap fun next => live[next]?)

def withLiveness (regions : List Region) : List Region × Nat :=
  let (live, rounds) := liveSets regions
  (regions.map fun region =>
    { region with
      liveIn := live.getD region.id .empty
      liveOut := liveOutOf live region }, rounds)

end Resumable.Region

namespace Resumable

/-- Splits a body into regions and settles what each suspension has to keep. Parameters have no
declaring node, so the entry region stores them when a later one reads them. -/
def Body.analyze (body : Body) (settings : Settings) : Except Failure Analysis := do
  match body.graph.head with
  | none => .error { fault := .graph .noHead }
  | some head =>
    let (regions, numbers) ← Region.discover body.graph head
    let (regions, rounds) := Region.withLiveness regions
    return {
      regions
      numbers
      entryStores := body.params.filter fun param => (regions.drop 1).any (·.liveIn.contains param)
      persistImmutable := settings.persistImmutable
      rounds }

end Resumable
