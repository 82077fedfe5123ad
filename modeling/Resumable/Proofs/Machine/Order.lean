import Mathlib
import Resumable.Proofs.Machine.Runs

/-! The order in which a machine goes through its regions. What is left of the route grows shorter
from region to region, so none is entered twice and every run comes to its end. -/

namespace Resumable

section Order

variable {lowered : Lowered} {settings settings' : Settings} {function : Function}
  {infos : List Variable} {s' : Stmt} {route : Route} {id next : RegionId} {first inst : Instance}
  {past : List Instance} {args : List Value}

def Analysis.Continues (analysis : Analysis) (id next : RegionId) : Prop :=
  ∃ region, analysis.region? id = some region ∧ next ∈ region.continuations

/-- How much of a route is left where a machine goes on. -/
def Analysis.ahead (analysis : Analysis) (route : Route) : Target → Nat
  | .complete => 0
  | .region id =>
    ((analysis.region? id).map fun region => (region.part route).sites.length).getD 0

theorem Analysis.Part.ahead_eq {analysis : Analysis} {body : Body} {region : Region} {tail : Route}
    {context behind : Context} (distinct : route.ids.Nodup)
    (part : analysis.Part body route id region tail context behind) :
    analysis.ahead route (.region id) = tail.sites.length := by
  rw [Analysis.ahead, part.present, Option.map_some, Option.getD_some,
    Region.part_eq distinct part.inside part.covers.start]

theorem Lowered.Traced.ahead_lt (traced : lowered.Traced settings function infos s' route)
    (continues : lowered.analysis.Continues id next) :
    lowered.analysis.ahead route (.region next) < lowered.analysis.ahead route (.region id) := by
  obtain ⟨region, present, member⟩ := continues
  obtain ⟨tail, _, _, part⟩ := traced.built.part_of_region traced.covers present
  obtain ⟨halt, halts, e, starts, rfl⟩ := (part.covers.continuations next).mp member
  obtain ⟨_, _, _, further⟩ := part.next traced.built traced.covers halts starts
  rw [part.ahead_eq traced.built.distinct, further.ahead_eq traced.built.distinct]
  exact Route.halt_rest_shorter halts

theorem Lowered.Traced.acyclic (traced : lowered.Traced settings function infos s' route)
    (id : RegionId) :
    ¬ Relation.TransGen lowered.analysis.Continues id id := by
  have shorter : ∀ {id next}, Relation.TransGen lowered.analysis.Continues id next →
      lowered.analysis.ahead route (.region next) < lowered.analysis.ahead route (.region id) := by
    intro id next chain
    induction chain with
    | single continues => exact traced.ahead_lt continues
    | tail _ continues ih => exact Nat.lt_trans (traced.ahead_lt continues) ih
  exact fun cycle => Nat.lt_irrefl _ (shorter cycle)

/-- A resume that succeeds leaves less of the route ahead. -/
theorem Instance.Ready.ahead_lt {tail : Route} {region : Region} {context behind : Context}
    {flat : Session} {inst' : Instance} {value : Option Value}
    (traced : lowered.Traced settings function infos s' route)
    (ready : inst.Ready lowered infos route past flat id region tail context behind)
    (done : inst.resume = (.ok value, inst')) :
    lowered.analysis.ahead route inst'.state < lowered.analysis.ahead route inst.state := by
  have here := ready.part.ahead_eq traced.built.distinct
  have complete : lowered.analysis.ahead route .complete < tail.sites.length := by
    have listed := Route.mem_ids_of_first? ready.part.covers.start
    have some_ : tail.sites ≠ [] := fun empty => by
      rw [Route.ids, empty] at listed
      cases listed
    exact List.length_pos_iff.mpr some_
  rw [ready.state, here]
  rcases ready.step traced done with ⟨_, _, goes⟩ | ⟨halt, _, stopped, _, _, goes, further⟩
  · rwa [goes]
  · cases starts : halt.rest.first? with
    | none => rwa [goes, Route.target, starts]
    | some e =>
        obtain ⟨_, _, _, next⟩ := further e starts
        rw [next.state, next.part.ahead_eq traced.built.distinct]
        exact Route.halt_rest_shorter (Route.mem_halts_of_walk stopped)

theorem Instance.start_fresh (started : Instance.start lowered.machine args settings' = .ok first) :
    first.resumes = 0 ∧ first.maxResumes = settings'.maxResumes := by
  obtain ⟨_, _, done⟩ := ok_bind started
  cases done
  exact ⟨rfl, rfl⟩

/-- What a run has gone through: regions that are all different, and each further along the route
than those before it. -/
structure Instance.Along (inst first : Instance) (lowered : Lowered) (route : Route)
    (past : List Instance) : Prop where
  ahead : ∀ earlier ∈ past,
    lowered.analysis.ahead route inst.state < lowered.analysis.ahead route earlier.state
  regions : ∀ earlier ∈ past, ∃ id < lowered.analysis.regions.length,
    earlier.state = .region id
  once : ((past ++ [inst]).map Instance.state).Nodup
  count : inst.resumes = first.resumes + past.length
  limit : inst.maxResumes = first.maxResumes

theorem Instance.Reaches.along (traced : lowered.Traced settings function infos s' route)
    (started : Instance.start lowered.machine args settings' = .ok first)
    (reaches : first.Reaches past inst) : inst.Along first lowered route past := by
  induction reaches with
  | start =>
      exact ⟨fun _ impossible => (by cases impossible), fun _ impossible => (by cases impossible),
        by simp, rfl, rfl⟩
  | @resume past inst next value reaches done along =>
      rcases reaches.ready traced started with complete | ⟨flat, id, region, tail, _, _, ready⟩
      · rw [resume_complete complete] at done
        cases done
      · have less := ready.ahead_lt traced done
        have counted := resume_counted ready.state
        rw [done] at counted
        have ahead : ∀ earlier ∈ past ++ [inst], lowered.analysis.ahead route next.state <
            lowered.analysis.ahead route earlier.state := by
          intro earlier member
          rcases List.mem_append.mp member with older | last
          · exact Nat.lt_trans less (along.ahead earlier older)
          · exact List.mem_singleton.mp last ▸ less
        refine ⟨ahead, fun earlier member => ?_, ?_, ?_, counted.2.trans along.limit⟩
        · rcases List.mem_append.mp member with older | last
          · exact along.regions earlier older
          · refine ⟨id, ?_, List.mem_singleton.mp last ▸ ready.state⟩
            exact (List.getElem?_eq_some_iff.mp ready.part.present).1
        · rw [List.map_append]
          refine List.nodup_append.mpr ⟨along.once, List.nodup_singleton _, ?_⟩
          rintro state listed _ there rfl
          obtain ⟨earlier, member, rfl⟩ := List.mem_map.mp listed
          rw [List.map_singleton, List.mem_singleton] at there
          have impossible := ahead earlier member
          rw [there] at impossible
          exact Nat.lt_irrefl _ impossible
        · rw [counted.1, along.count, List.length_append, List.length_singleton, Nat.add_assoc]

theorem Target.length_le_of_nodup {states : List Target} {count : Nat} (once : states.Nodup)
    (regions : ∀ state ∈ states, ∃ id < count, state = .region id) : states.length ≤ count := by
  have inside : states ⊆ (List.range count).map Target.region := by
    intro state listed
    obtain ⟨id, below, is⟩ := regions state listed
    exact List.mem_map.mpr ⟨id, List.mem_range.mpr below, is.symm⟩
  have short := (once.subperm inside).length_le
  simpa using short

theorem Instance.Along.length_le (along : inst.Along first lowered route past) :
    past.length ≤ lowered.analysis.regions.length := by
  have once : (past.map Instance.state).Nodup := by
    have all := along.once
    rw [List.map_append] at all
    exact (List.nodup_append.mp all).1
  have short := Target.length_le_of_nodup once fun state listed => by
    obtain ⟨earlier, member, rfl⟩ := List.mem_map.mp listed
    exact along.regions earlier member
  simpa using short

theorem Instance.Along.length_lt {region : Region}
    (along : inst.Along first lowered route past) (resumes : inst.state = .region id)
    (present : lowered.analysis.region? id = some region) :
    past.length < lowered.analysis.regions.length := by
  have short := Target.length_le_of_nodup along.once fun state listed => by
    obtain ⟨earlier, member, rfl⟩ := List.mem_map.mp listed
    rcases List.mem_append.mp member with older | last
    · exact along.regions earlier older
    · exact ⟨id, (List.getElem?_eq_some_iff.mp present).1, List.mem_singleton.mp last ▸ resumes⟩
  rw [List.length_map, List.length_append, List.length_singleton] at short
  exact short

/-- A run that goes on as long as it may ends in a failure, in completion, or for want of allowance.
-/
theorem Instance.Reaches.runFrom (allowed : Nat) (yielded : List Value)
    (reaches : first.Reaches past inst) : ∃ past' last, first.Reaches past' last ∧
      ((∃ failure after, last.isComplete = false ∧ last.resume = (.error failure, after) ∧
        inst.runFrom allowed yielded = (.error failure, after)) ∨
      ∃ values, inst.runFrom allowed yielded = (.ok values, last) ∧
        (last.state = .complete ∨ past'.length = past.length + allowed)) := by
  induction allowed generalizing past inst yielded with
  | zero => exact ⟨past, inst, reaches, .inr ⟨yielded.reverse, rfl, .inr rfl⟩⟩
  | succ allowed ih =>
      rw [Instance.runFrom]
      cases complete : inst.isComplete with
      | true => exact ⟨past, inst, reaches, .inr ⟨yielded.reverse, rfl,
          .inl (of_decide_eq_true complete)⟩⟩
      | false =>
          cases resumed : inst.resume with
          | mk answer after =>
              cases answer with
              | error failure =>
                  exact ⟨past, inst, reaches, .inl ⟨failure, after, complete, resumed, rfl⟩⟩
              | ok value =>
                  obtain ⟨past', last, further, ends⟩ :=
                    ih (value.toList ++ yielded) (.resume reaches resumed)
                  refine ⟨past', last, further, ends.imp_right ?_⟩
                  rintro ⟨values, runs, enough⟩
                  refine ⟨values, runs, enough.imp_right fun length => ?_⟩
                  rw [length, List.length_append, List.length_singleton]
                  omega

theorem Instance.runToCompletion_bounded
    (traced : lowered.Traced settings function infos s' route)
    (started : Instance.start lowered.machine args settings' = .ok first)
    (enough : lowered.analysis.regions.length ≤ settings'.maxResumes) :
    first.runToCompletion.2.resumes ≤ lowered.analysis.regions.length ∧
    (∀ values, first.runToCompletion.1 = .ok values →
      first.runToCompletion.2.state = .complete) ∧
    ∀ failure, first.runToCompletion.1 = .error failure →
      ∀ name limit, failure.fault ≠ .run (.resumeLimit name limit) := by
  have fresh := Instance.start_fresh started
  obtain ⟨past, last, reaches, ends⟩ := Instance.Reaches.runFrom first.allowance [] .start
  have along := reaches.along traced started
  have count := along.count
  have limit := along.limit
  rw [Instance.runToCompletion]
  rcases ends with ⟨failure, after, away, resumed, runs⟩ | ⟨values, runs, ended⟩
  · rcases reaches.ready traced started with complete | ⟨flat, id, region, tail, _, _, ready⟩
    · rw [Instance.isComplete, complete] at away
      cases away
    · have less := along.length_lt ready.state ready.part.present
      have counted := (resume_counted ready.state).1
      rw [resumed] at counted
      rw [runs]
      refine ⟨?_, fun _ impossible => (by cases impossible), ?_⟩
      · rw [counted]
        omega
      · rintro _ ⟨⟩ name bound same
        rcases ready.fails traced (congrArg Prod.fst resumed) with ⟨fault, own, is⟩ |
          ⟨_, _, _, _, own⟩ | ⟨beyond, _⟩
        · rw [own] at same
          cases same
          cases is
        · rw [own] at same
          cases same
        · omega
  · have short := along.length_le
    rw [runs]
    dsimp only
    refine ⟨by omega, fun _ _ => ?_, fun _ impossible => (by cases impossible)⟩
    rcases ended with complete | long
    · exact complete
    · rw [Instance.allowance] at long
      simp only [List.length_nil] at long
      omega

theorem Instance.Ready.continues {tail : Route} {region : Region} {context behind : Context}
    {flat : Session} {inst' : Instance} {value : Option Value}
    (traced : lowered.Traced settings function infos s' route)
    (ready : inst.Ready lowered infos route past flat id region tail context behind)
    (done : inst.resume = (.ok value, inst')) (goes : inst'.state = .region next) :
    lowered.analysis.Continues id next := by
  rcases ready.step traced done with ⟨_, _, complete⟩ | ⟨halt, _, stopped, _, _, aims, _⟩
  · cases goes.symm.trans complete
  · rw [goes, Route.target] at aims
    cases starts : halt.rest.first? with
    | none => rw [starts] at aims; cases aims
    | some e =>
        rw [starts] at aims
        cases aims
        exact ⟨region, ready.part.present, (ready.part.covers.continuations _).mpr
          ⟨halt, Route.mem_halts_of_walk stopped, e, starts, rfl⟩⟩

/-- A coroutine with a region that goes on in one with a smaller number, and a run through it. -/
theorem Source.fork_turns_back : ∃ lowered first, fork.lower {} = .ok lowered ∧
    Instance.start lowered.machine [.bool false, .int 2] {} = .ok first ∧
    lowered.analysis.Continues 2 1 ∧ lowered.analysis.regions.length = 3 ∧
    first.runToCompletion.2.state = .complete ∧ first.runToCompletion.2.resumes = 3 := by
  have seen : ((fork.lower {}).bind fun lowered =>
      (Instance.start lowered.machine [.bool false, .int 2] {}).map fun first =>
        (lowered.analysis.regions.map Region.continuations, first.runToCompletion.2.state,
          first.runToCompletion.2.resumes)) = .ok ([[1, 2], [], [1]], .complete, 3) := by cbv
  obtain ⟨lowered, first, done, started, same⟩ := start_of_bind seen
  obtain ⟨regions, rest⟩ := Prod.mk.inj same
  obtain ⟨state, resumes⟩ := Prod.mk.inj rest
  have length := congrArg List.length regions
  rw [List.length_map] at length
  refine ⟨lowered, first, done, started, ?_, length, state, resumes⟩
  have present : (lowered.analysis.regions.map Region.continuations)[2]? = some [1] := by
    rw [regions]
    rfl
  rw [List.getElem?_map] at present
  obtain ⟨region, there, same⟩ := Option.map_eq_some_iff.mp present
  exact ⟨region, there, same ▸ List.mem_singleton_self 1⟩

/-- Runs are bounded by the number of regions. No region can be come back to, although a region may
go on in one with a smaller number; so each is resumed once at most, and with a resume allowed for
every region no run reaches the limit. -/
theorem Lowered.resumes_bounded {source : Source} (lowers : source.lower settings = .ok lowered) :
    (∀ id, ¬ Relation.TransGen lowered.analysis.Continues id id) ∧
    (∃ (other : Source) (others : Settings) (forked : Lowered) (id next : RegionId),
      other.lower others = .ok forked ∧ forked.analysis.Continues id next ∧ next < id) ∧
    ∀ args settings' first, Instance.start lowered.machine args settings' = .ok first →
      (∀ past inst, first.Reaches past inst → ((past ++ [inst]).map Instance.state).Nodup ∧
        ∀ value inst' id next, inst.resume = (.ok value, inst') → inst.state = .region id →
          inst'.state = .region next → lowered.analysis.Continues id next) ∧
      (lowered.analysis.regions.length ≤ settings'.maxResumes →
        first.runToCompletion.2.resumes ≤ lowered.analysis.regions.length ∧
        (∀ values, first.runToCompletion.1 = .ok values →
          first.runToCompletion.2.state = .complete) ∧
        ∀ failure, first.runToCompletion.1 = .error failure →
          ∀ name limit, failure.fault ≠ .run (.resumeLimit name limit)) := by
  obtain ⟨function, infos, s', route, _, traced⟩ := Source.lower_traced lowers
  refine ⟨traced.acyclic, ?_, fun args settings' first started => ⟨fun past inst reaches =>
    ⟨(reaches.along traced started).once, fun value inst' id next done state goes => ?_⟩,
    Instance.runToCompletion_bounded traced started⟩⟩
  · obtain ⟨forked, _, done, _, continues, _⟩ := Source.fork_turns_back
    exact ⟨.fork, {}, forked, 2, 1, done, continues, Nat.lt_succ_self 1⟩
  · rcases reaches.ready traced started with complete | ⟨flat, id', region, tail, _, _, ready⟩
    · cases complete.symm.trans state
    · cases ready.state.symm.trans state
      exact ready.continues traced done goes

theorem Lowered.resumes_bounded_fork : ∃ lowered first, Source.fork.lower {} = .ok lowered ∧
    Instance.start lowered.machine [.bool false, .int 2] {} = .ok first ∧
    first.runToCompletion.2.resumes = lowered.analysis.regions.length ∧
    first.runToCompletion.2.resumes ≤ lowered.analysis.regions.length ∧
    first.Reaches [] first ∧ (([] ++ [first]).map Instance.state).Nodup ∧
    ¬ Relation.TransGen lowered.analysis.Continues 2 2 := by
  obtain ⟨lowered, first, done, started, _, length, _, resumes⟩ := Source.fork_turns_back
  obtain ⟨acyclic, _, runs⟩ := Lowered.resumes_bounded done
  obtain ⟨once, bounded⟩ := runs _ _ _ started
  have enough : lowered.analysis.regions.length ≤ ({} : Settings).maxResumes := by
    rw [length]
    decide
  exact ⟨lowered, first, done, started, resumes.trans length.symm, (bounded enough).1, .start,
    (once _ _ .start).1, acyclic 2⟩

end Order
end Resumable
