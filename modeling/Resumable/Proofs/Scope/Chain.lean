import Mathlib.Data.List.Nodup
import Resumable.Scope.Chain

/-! The walk outward through scopes, one scope at a time. It ends because a scope is made after the
scope around it. -/

namespace Resumable.ScopeChain

/-- Every scope was made after the one around it. -/
def Rooted (chain : ScopeChain) : Prop :=
  ∀ scope outer : Nat, chain.outer? scope = some outer → outer < scope

variable {chain chain' : ScopeChain} {scope outer : Nat}

theorem walk_eq_walk (rooted : chain.Rooted) (scope : Nat) {steps steps' : Nat}
    (enough : scope < steps) (enough' : scope < steps') :
    chain.walk steps scope = chain.walk steps' scope := by
  induction scope using Nat.strongRecOn generalizing steps steps' with
  | _ scope ih =>
      obtain ⟨fewer, rfl⟩ := Nat.exists_eq_succ_of_ne_zero (Nat.ne_zero_of_lt enough)
      obtain ⟨fewer', rfl⟩ := Nat.exists_eq_succ_of_ne_zero (Nat.ne_zero_of_lt enough')
      rw [walk, walk]
      cases around : chain.outer? scope with
      | none => rfl
      | some outer =>
          have below := rooted scope outer around
          have same := @ih outer below fewer fewer' (by omega) (by omega)
          simp only [same]

theorem lt_size_of_scope? {entry : Scope} (present : chain.scope? scope = some entry) :
    scope < chain.size := by
  obtain ⟨inside, _⟩ := Array.getElem?_eq_some_iff.mp present
  exact inside

theorem lt_size_of_outer? (around : chain.outer? scope = some outer) :
    scope < chain.size := by
  obtain ⟨entry, present, _⟩ := Option.bind_eq_some_iff.mp around
  exact lt_size_of_scope? present

theorem scope?_isSome (inside : scope < chain.size) :
    ∃ entry, chain.scope? scope = some entry :=
  ⟨_, Array.getElem?_eq_getElem inside⟩

theorem eq_root_of_scope?_initial {entry : Scope} (present : initial.scope? scope = some entry) :
    scope = root ∧ entry = { outer := none } := by
  obtain rfl : scope = 0 := Nat.lt_one_iff.mp (lt_size_of_scope? present)
  exact ⟨rfl, (Option.some.inj present).symm⟩

theorem rooted_initial : initial.Rooted := by
  intro scope outer around
  obtain ⟨entry, present, outside⟩ := Option.bind_eq_some_iff.mp around
  obtain ⟨_, rfl⟩ := eq_root_of_scope?_initial present
  cases outside

theorem outward_eq (rooted : chain.Rooted) (scope : Nat) :
    chain.outward scope = scope :: match chain.outer? scope with
      | none => []
      | some outer => chain.outward outer := by
  rw [outward, walk]
  cases around : chain.outer? scope with
  | none => rfl
  | some outer =>
      have inside := lt_size_of_outer? around
      have below := rooted scope outer around
      have within := Nat.lt_trans below inside
      have same := walk_eq_walk rooted outer within (Nat.lt_succ_of_lt within)
      simp only [same]
      rfl

theorem le_of_mem_outward (rooted : chain.Rooted) {inner : Nat}
    (around : scope ∈ chain.outward inner) : scope ≤ inner := by
  induction inner using Nat.strongRecOn with
  | _ inner ih =>
      rw [outward_eq rooted] at around
      rcases List.mem_cons.mp around with rfl | further
      · exact Nat.le_refl _
      · cases next : chain.outer? inner with
        | none => simp [next] at further
        | some outer =>
            have below := rooted inner outer next
            have found := ih outer below (by simpa [next] using further)
            omega

theorem outward_eq_cons (rooted : chain.Rooted) (scope : Nat) :
    ∃ around : List ScopeId, chain.outward scope = scope :: around ∧
      ∀ wider : Nat, wider ∈ around → wider < scope := by
  rw [outward_eq rooted]
  cases next : chain.outer? scope with
  | none => exact ⟨[], rfl, by simp⟩
  | some outer =>
      refine ⟨chain.outward outer, rfl, fun wider member => ?_⟩
      exact Nat.lt_of_le_of_lt (le_of_mem_outward rooted member) (rooted scope outer next)

theorem outward_nodup (rooted : chain.Rooted) (scope : Nat) : (chain.outward scope).Nodup := by
  induction scope using Nat.strongRecOn with
  | _ scope ih =>
      rw [outward_eq rooted]
      cases around : chain.outer? scope with
      | none => exact List.nodup_singleton scope
      | some outer =>
          have below := rooted scope outer around
          refine List.nodup_cons.mpr ⟨fun member => ?_, ih outer below⟩
          have back := le_of_mem_outward rooted member
          omega

theorem visible_nodup (rooted : chain.Rooted) (once : ∀ scope, (chain.declaredIn scope).Nodup)
    (own : ∀ {inner wider var}, var ∈ chain.declaredIn inner → var ∈ chain.declaredIn wider →
      inner = wider) (scope : Nat) : (chain.visible scope).Nodup := by
  refine List.nodup_flatMap.mpr ⟨fun outer _ => once outer, ?_⟩
  exact (outward_nodup rooted scope).imp fun apart _ here there => apart (own here there)

theorem size_openScope (chain : ScopeChain) (outer : Nat) :
    (chain.openScope outer).size = chain.size + 1 := by
  simp [size, openScope]

theorem scope?_openScope (chain : ScopeChain) (outer scope : Nat) :
    (chain.openScope outer).scope? scope =
      if scope = chain.size then some { outer := some outer } else chain.scope? scope := by
  simp only [scope?, openScope, size, Array.getElem?_push]
  rfl

theorem bind?_eq_some {name : String} {var : VarId} (bound : chain.bind? scope name var = some chain') :
    ∃ entry, chain.scope? scope = some entry ∧
      chain'.size = chain.size ∧ ∀ other, chain'.scope? other =
        if other = scope then some { entry with declared := entry.declared ++ [(name, var)] }
        else chain.scope? other := by
  obtain ⟨entry, present, rfl⟩ := Option.map_eq_some_iff.mp bound
  refine ⟨entry, present, by simp [size], fun other => ?_⟩
  have inside := lt_size_of_scope? present
  simp only [scope?, Array.getElem?_setIfInBounds]
  by_cases same : scope = other
  · subst same
    have within : scope < chain.scopes.size := inside
    simp [within]
  · have apart : other ≠ scope := fun equal => same equal.symm
    simp [same, apart]

def SameOuter (chain chain' : ScopeChain) : Prop :=
  ∀ scope : Nat, scope < chain.size → chain'.outer? scope = chain.outer? scope

theorem outward_eq_of_sameOuter (rooted : chain.Rooted) (rooted' : chain'.Rooted)
    (same : SameOuter chain chain') (inside : scope < chain.size) :
    chain'.outward scope = chain.outward scope := by
  induction scope using Nat.strongRecOn with
  | _ scope ih =>
      rw [outward_eq rooted, outward_eq rooted', same scope inside]
      cases around : chain.outer? scope with
      | none => rfl
      | some outer =>
          have below := rooted scope outer around
          simp only [ih outer below (Nat.lt_trans below inside)]

theorem scope?_openScope_of_lt (outer : Nat) (inside : scope < chain.size) :
    (chain.openScope outer).scope? scope = chain.scope? scope := by
  rw [scope?_openScope, if_neg (Nat.ne_of_lt inside)]

theorem scope?_openScope_size (chain : ScopeChain) (outer : Nat) :
    (chain.openScope outer).scope? chain.size = some { outer := some outer } := by
  rw [scope?_openScope, if_pos rfl]

theorem outer?_openScope_size (chain : ScopeChain) (outer : Nat) :
    (chain.openScope outer).outer? chain.size = some outer := by
  rw [outer?, scope?_openScope_size]
  rfl

theorem sameOuter_openScope (chain : ScopeChain) (outer : Nat) :
    chain.SameOuter (chain.openScope outer) := by
  intro scope inside
  rw [outer?, outer?, scope?_openScope_of_lt outer inside]

theorem rooted_openScope (rooted : chain.Rooted) (inside : outer < chain.size) :
    (chain.openScope outer).Rooted := by
  intro scope around found
  have within := lt_size_of_outer? found
  rw [size_openScope] at within
  by_cases last : scope = chain.size
  · rw [last, outer?_openScope_size] at found
    rw [last, ← Option.some.inj found]
    exact inside
  · have below : scope < chain.size := by omega
    rw [sameOuter_openScope chain outer scope below] at found
    exact rooted scope around found

theorem outward_openScope_of_lt (rooted : chain.Rooted) (insideOuter : outer < chain.size)
    (inside : scope < chain.size) :
    (chain.openScope outer).outward scope = chain.outward scope :=
  outward_eq_of_sameOuter rooted (rooted_openScope rooted insideOuter)
    (sameOuter_openScope chain outer) inside

theorem outward_openScope_size (rooted : chain.Rooted) (inside : outer < chain.size) :
    (chain.openScope outer).outward chain.size = chain.size :: chain.outward outer := by
  rw [outward_eq (rooted_openScope rooted inside), outer?_openScope_size]
  simp only [outward_openScope_of_lt rooted inside inside]

theorem declaredHere?_openScope_size (chain : ScopeChain) (outer : Nat) (name : String) :
    (chain.openScope outer).declaredHere? chain.size name = none := by
  rw [declaredHere?, scope?_openScope_size]
  rfl

theorem visible_openScope_size (rooted : chain.Rooted) (inside : outer < chain.size) :
    (chain.openScope outer).visible chain.size = chain.visible outer := by
  have nothing : (chain.openScope outer).declaredIn chain.size = [] := by
    rw [declaredIn, scope?_openScope_size]
    rfl
  rw [visible, outward_openScope_size rooted inside, List.flatMap_cons, nothing, List.nil_append]
  refine List.flatMap_congr fun scope around => ?_
  have below := le_of_mem_outward rooted around
  rw [declaredIn, declaredIn, scope?_openScope_of_lt outer (Nat.lt_of_le_of_lt below inside)]

theorem resolve?_openScope_size (rooted : chain.Rooted) (inside : outer < chain.size)
    (name : String) :
    (chain.openScope outer).resolve? chain.size name = chain.resolve? outer name := by
  have same : ∀ scope ∈ chain.outward outer,
      (chain.openScope outer).declaredHere? scope name = chain.declaredHere? scope name := by
    intro scope around
    have below := le_of_mem_outward rooted around
    rw [declaredHere?, declaredHere?,
      scope?_openScope_of_lt outer (Nat.lt_of_le_of_lt below inside)]
  rw [resolve?, outward_openScope_size rooted inside, List.findSome?_cons,
    declaredHere?_openScope_size, resolve?, ← List.head?_filterMap, ← List.head?_filterMap,
    List.filterMap_congr same]

end Resumable.ScopeChain
