import Mathlib.Data.List.Nodup
import Resumable.Proofs.Eval.Frame
import Resumable.Proofs.Program.Renamed

/-! Environments that hold the same values under other names. The scopes of the target need not be
those of the source: each value is found under its local name, wherever that is defined. -/

namespace Resumable

/-- A scope with exactly the names of a naming, whose values the target has under local names. -/
def Naming.Holds (target : Env) (naming : Naming) (scope : List (String × Value)) : Prop :=
  scope.map Prod.fst = naming.map Prod.fst ∧
    ∀ name localName, naming.lookup name = some localName →
      target.get? localName = scope.lookup name

structure Placed (namings : List Naming) (source target : Env) : Prop where
  distinct : (Naming.locals namings).Nodup
  scopes : List.Forall₂ (Naming.Holds target) namings source

namespace Naming

theorem lookup_append_single {naming : Naming} {name localName other : String}
    (new : naming.lookup name = none) :
    (naming ++ [(name, localName)]).lookup other =
      if other = name then some localName else naming.lookup other := by
  rw [List.lookup_append]
  by_cases same : other = name
  · simp [same, new]
  · have apart : (other == name) = false := by simpa using same
    simp [same, List.lookup_cons, apart]

theorem lookup_eq_none_iff {naming : Naming} {name : String} :
    naming.lookup name = none ↔ name ∉ naming.map Prod.fst := by
  induction naming with
  | nil => simp
  | cons entry rest ih =>
      obtain ⟨head, localName⟩ := entry
      by_cases same : name = head
      · simp [same]
      · have apart : (name == head) = false := by simpa using same
        rw [List.lookup_cons, apart, ih]
        simp [same]

theorem mem_of_lookup {naming : Naming} {name localName : String}
    (found : naming.lookup name = some localName) : (name, localName) ∈ naming := by
  obtain ⟨before, behind, rfl, _⟩ := List.lookup_eq_some_iff.mp found
  simp

theorem name_eq_of_lookup {naming : Naming} {name other localName : String}
    (distinct : (naming.map Prod.snd).Nodup) (found : naming.lookup name = some localName)
    (also : naming.lookup other = some localName) : other = name := by
  have first := mem_of_lookup found
  have second := mem_of_lookup also
  have equal := List.inj_on_of_nodup_map distinct second first rfl
  exact congrArg Prod.fst equal

theorem Holds.congr {target target' : Env} {naming : Naming} {scope : List (String × Value)}
    (holds : Holds target naming scope)
    (same : ∀ localName ∈ naming.map Prod.snd, target'.get? localName = target.get? localName) :
    Holds target' naming scope := by
  refine ⟨holds.1, fun name localName found => ?_⟩
  have member : localName ∈ naming.map Prod.snd := List.mem_map_of_mem (mem_of_lookup found)
  rw [same localName member]
  exact holds.2 name localName found

theorem Holds.lookup_isSome {target : Env} {naming : Naming} {scope : List (String × Value)}
    (holds : Holds target naming scope) (name : String) :
    (scope.lookup name).isSome = (naming.lookup name).isSome := by
  rw [Bool.eq_iff_iff, Env.lookup_isSome_iff, holds.1]
  cases found : naming.lookup name with
  | none => simpa using lookup_eq_none_iff.mp found
  | some localName => simpa using List.mem_map_of_mem (f := Prod.fst) (mem_of_lookup found)

end Naming

namespace Placed

variable {inner : Naming} {outer namings : List Naming} {source target : Env}

theorem scopes_congr {target' : Env} (placed : List.Forall₂ (Naming.Holds target) namings source)
    (same : ∀ localName ∈ Naming.locals namings, target'.get? localName = target.get? localName) :
    List.Forall₂ (Naming.Holds target') namings source := by
  induction placed with
  | nil => exact .nil
  | cons head _ ih =>
      refine .cons (head.congr fun localName member => ?_) (ih fun localName member => ?_)
      · exact same localName (List.mem_append_left _ member)
      · exact same localName (List.mem_append_right _ member)

theorem congr {target' : Env} (placed : Placed namings source target)
    (same : ∀ localName ∈ Naming.locals namings, target'.get? localName = target.get? localName) :
    Placed namings source target' :=
  ⟨placed.distinct, scopes_congr placed.scopes same⟩

theorem get?_eq (placed : Placed namings source target) {name localName : String}
    (found : Naming.find? name namings = some localName) :
    ∃ v, source.get? name = some v ∧ target.get? localName = some v := by
  have scopes := placed.scopes
  clear placed
  induction scopes with
  | nil => simp [Naming.find?] at found
  | cons head _ ih =>
      rename_i naming scope namings source _
      have both := head.lookup_isSome name
      cases here : naming.lookup name with
      | none =>
          rw [here, Option.isSome_none, Option.isSome_eq_false_iff, Option.isNone_iff_eq_none]
            at both
          have further : Naming.find? name namings = some localName := by
            simpa [Naming.find?, here] using found
          obtain ⟨v, inSource, inTarget⟩ := ih further
          exact ⟨v, by simpa [Env.get?, both] using inSource, inTarget⟩
      | some other =>
          have equal : other = localName := by simpa [Naming.find?, here] using found
          subst equal
          rw [here, Option.isSome_some, Option.isSome_iff_exists] at both
          obtain ⟨v, value⟩ := both
          exact ⟨v, by simp [Env.get?, value], by rw [head.2 name other here, value]⟩

theorem push_source (placed : Placed namings source target) :
    Placed ([] :: namings) source.push target :=
  ⟨by simpa using placed.distinct, .cons ⟨rfl, by simp⟩ placed.scopes⟩

theorem push_target (placed : Placed namings source target) :
    Placed namings source target.push :=
  placed.congr fun _ _ => rfl

theorem pop_source {scope : List (String × Value)}
    (placed : Placed (inner :: outer) (scope :: source) target) : Placed outer source target := by
  refine ⟨?_, ?_⟩
  · have distinct := placed.distinct
    rw [Naming.locals_cons] at distinct
    exact (List.nodup_append.mp distinct).2.1
  · cases placed.scopes with
    | cons _ rest => exact rest

theorem pop_target {scope : List (String × Value)}
    (placed : Placed namings source (scope :: target))
    (unused : ∀ name ∈ scope.map Prod.fst, name ∉ Naming.locals namings) :
    Placed namings source target := by
  refine placed.congr fun localName member => ?_
  have absent : localName ∉ scope.map Prod.fst := fun here => unused localName here member
  exact (Env.get?_cons_of_not_mem absent).symm

theorem define (placed : Placed (inner :: outer) source target) (open_ : target ≠ [])
    {name localName : String} (new : inner.lookup name = none)
    (fresh : localName ∉ Naming.locals (inner :: outer)) (v : Value) :
    Placed ((inner ++ [(name, localName)]) :: outer) (source.define name v)
      (target.define localName v) := by
  have other : ∀ x ∈ Naming.locals (inner :: outer),
      (target.define localName v).get? x = target.get? x := by
    intro x member
    have apart : x ≠ localName := fun same => fresh (same ▸ member)
    rw [Env.get?_define open_, if_neg apart]
  have kept := placed.congr other
  obtain ⟨distinct, scopes⟩ := kept
  cases scopes with
  | cons head rest =>
      rename_i scope source
      refine ⟨?_, .cons ⟨?_, ?_⟩ rest⟩
      · rw [Naming.locals_cons, List.mem_append, not_or] at fresh
        rw [Naming.locals_cons] at distinct ⊢
        have single : (inner ++ [(name, localName)]).map Prod.snd =
            inner.map Prod.snd ++ [localName] := by
          simp
        rw [single, List.append_assoc, List.nodup_append]
        obtain ⟨first, second, apart⟩ := List.nodup_append.mp distinct
        refine ⟨first, List.nodup_cons.mpr ⟨fresh.2, second⟩, ?_⟩
        intro a left b right
        rcases List.mem_cons.mp right with rfl | right
        · exact fun same => fresh.1 (same ▸ left)
        · exact apart a left b right
      · have absent : name ∉ scope.map Prod.fst := by
          rw [head.1]
          exact Naming.lookup_eq_none_iff.mp new
        rw [Env.bind_of_not_mem absent]
        simp [head.1]
      · intro x y found
        rw [Naming.lookup_append_single new] at found
        rw [Env.lookup_bind]
        by_cases same : x = name
        · rw [if_pos same, Option.some.injEq] at found
          rw [if_pos same, ← found, Env.get?_define open_, if_pos rfl]
        · rw [if_neg same] at found
          rw [if_neg same]
          exact head.2 x y found

theorem scopes_assign {name localName : String} {v : Value} {target' : Env}
    (placed : List.Forall₂ (Naming.Holds target) namings source)
    (distinct : (Naming.locals namings).Nodup)
    (found : Naming.find? name namings = some localName)
    (changed : ∀ other, target'.get? other =
      if other = localName then some v else target.get? other) :
    ∃ source', source.assign? name v = some source' ∧
      List.Forall₂ (Naming.Holds target') namings source' := by
  induction placed with
  | nil => simp [Naming.find?] at found
  | cons head rest ih =>
      rename_i naming scope namings source
      rw [Naming.locals_cons] at distinct
      obtain ⟨first, second, apart⟩ := List.nodup_append.mp distinct
      have both := head.lookup_isSome name
      cases here : naming.lookup name with
      | none =>
          have further : Naming.find? name namings = some localName := by
            simpa [Naming.find?, here] using found
          obtain ⟨source', assigned, placed'⟩ := ih second further
          refine ⟨scope :: source', ?_, .cons (head.congr fun other member => ?_) placed'⟩
          · rw [here, Option.isSome_none] at both
            simp [Env.assign?, both, assigned]
          · have distinctName : other ≠ localName :=
              apart other member localName (Naming.mem_locals_of_find? further)
            rw [changed, if_neg distinctName]
      | some found' =>
          have equal : found' = localName := by simpa [Naming.find?, here] using found
          subst equal
          rw [here, Option.isSome_some] at both
          have present : name ∈ scope.map Prod.fst := Env.lookup_isSome_iff.mp both
          refine ⟨Env.bind name v scope :: source, by simp [Env.assign?, both], .cons ⟨?_, ?_⟩ ?_⟩
          · rw [Env.keys_bind_of_mem present]
            exact head.1
          · intro other otherLocal inNaming
            rw [Env.lookup_bind, changed]
            by_cases same : other = name
            · subst same
              have equal : otherLocal = found' := by
                rw [here] at inNaming
                exact (Option.some.inj inNaming).symm
              rw [if_pos equal, if_pos rfl]
            · have distinctName : otherLocal ≠ found' := fun equal =>
                same (Naming.name_eq_of_lookup first here (equal ▸ inNaming))
              rw [if_neg distinctName, if_neg same]
              exact head.2 other otherLocal inNaming
          · refine scopes_congr rest fun other member => ?_
            have member' : found' ∈ naming.map Prod.snd :=
              List.mem_map_of_mem (Naming.mem_of_lookup here)
            have distinctName : other ≠ found' := fun equal =>
              apart found' member' other member equal.symm
            rw [changed, if_neg distinctName]

theorem assign (placed : Placed namings source target) {name localName : String}
    (found : Naming.find? name namings = some localName) (v : Value) :
    ∃ source' target', source.assign? name v = some source' ∧
      target.assign? localName v = some target' ∧ Placed namings source' target' := by
  obtain ⟨old, _, inTarget⟩ := placed.get?_eq found
  have bound : (target.assign? localName v).isSome := by
    rw [Env.assign?_isSome_iff, inTarget, Option.isSome_some]
  obtain ⟨target', assigned⟩ := Option.isSome_iff_exists.mp bound
  have changed := fun other => @Env.get?_assign? localName other v target target' assigned
  obtain ⟨source', inSource, scopes⟩ := scopes_assign placed.scopes placed.distinct found changed
  exact ⟨source', target', inSource, assigned, placed.distinct, scopes⟩

end Placed
end Resumable
