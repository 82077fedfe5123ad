import Mathlib.Data.List.Nodup
import Mathlib.Data.List.Perm.Subperm
import Resumable.Proofs.Scope.Chain
import Resumable.Scope.Variable

/-! Fresh local names, and the first free slots of scopes. -/

namespace Resumable.VariableTable

variable {table : VariableTable} {chain : ScopeChain}

theorem toString_inj {m n : Nat} (same : toString m = toString n) : m = n := by
  have digits := congrArg (fun text => Nat.ofDigitChars 10 (String.toList text) 0) same
  simpa using digits

theorem candidate_inj {name : String} {m n : Nat} (same : candidate name m = candidate name n) :
    m = n := by
  have numbered : ∀ {k : Nat}, k ≠ 0 → candidate name k = name ++ ("$" ++ toString k) := by
    intro k some_
    rw [candidate, if_neg some_, String.append_assoc]
  have longer : ∀ {k : Nat}, k ≠ 0 → candidate name k ≠ name := by
    intro k some_ equal
    have lengths := congrArg String.length (numbered some_ ▸ equal)
    simp at lengths
  by_cases first : m = 0
  · by_cases second : n = 0
    · omega
    · rw [first] at same
      exact absurd same.symm (longer second)
  · by_cases second : n = 0
    · rw [second] at same
      exact absurd same (longer first)
    · rw [numbered first, numbered second, String.append_right_inj, String.append_right_inj] at same
      exact toString_inj same

theorem isTaken_iff {localName : String} :
    table.isTaken localName = true ↔ localName ∈ table.vars.toList.map Variable.localName := by
  rw [isTaken, Array.any_eq_true']
  simp

theorem exists_free (table : VariableTable) (name : String) (start : Nat) :
    ∃ number, start ≤ number ∧ number ≤ start + table.size ∧
      table.isTaken (candidate name number) = false := by
  by_contra none_
  have distinct : ((List.range' start (table.size + 1)).map (candidate name)).Nodup :=
    List.Nodup.map (fun _ _ => candidate_inj) List.nodup_range'
  have inside : (List.range' start (table.size + 1)).map (candidate name) ⊆
      table.vars.toList.map Variable.localName := by
    intro form member
    obtain ⟨number, within, rfl⟩ := List.mem_map.mp member
    have bounds := List.mem_range'_1.mp within
    by_contra free
    exact none_ ⟨number, bounds.1, by omega, by
      rwa [← isTaken_iff, Bool.not_eq_true] at free⟩
  have count := (distinct.subperm inside).length_le
  simp only [List.length_map, List.length_range', Array.length_toList, size] at count
  omega

theorem freshName_first (table : VariableTable) (name : String) :
    ∃ number, table.freshName name = candidate name number ∧
      table.isTaken (candidate name number) = false ∧
      ∀ other < number, table.isTaken (candidate name other) = true := by
  obtain ⟨number, _, within, free⟩ := table.exists_free name 0
  rw [freshName, List.find?_map]
  cases found : (List.range (table.size + 1)).find?
      ((fun form => !table.isTaken form) ∘ candidate name) with
  | none =>
      have taken := List.find?_eq_none.mp found number (List.mem_range.mpr (by omega))
      simp [free] at taken
  | some first =>
      obtain ⟨here, _, before⟩ := List.find?_range_eq_some.mp found
      exact ⟨first, rfl, by simpa using here, fun other below => by simpa using before other below⟩

theorem freshName_not_taken (table : VariableTable) (name : String) :
    table.isTaken (table.freshName name) = false := by
  obtain ⟨number, same, free, _⟩ := table.freshName_first name
  rw [same, free]

theorem firstFree_eq (rooted : chain.Rooted) (scope : Nat) :
    table.firstFree chain scope = match table.next.lookup scope with
      | some extent => extent
      | none => match chain.outer? scope with
        | none => {}
        | some outer => table.firstFree chain outer := by
  rw [firstFree, ScopeChain.outward_eq rooted, List.findSome?_cons]
  cases table.next.lookup scope with
  | some extent => rfl
  | none => cases chain.outer? scope <;> rfl

/-- The scopes whose start `enter` fixes: those from one outward that have no start yet. -/
def unentered (table : VariableTable) (chain : ScopeChain) (scope : ScopeId) : List ScopeId :=
  (chain.outward scope).takeWhile fun outer => (table.next.lookup outer).isNone

theorem unentered_eq (rooted : chain.Rooted) (scope : Nat) :
    table.unentered chain scope = match table.next.lookup scope with
      | some _ => []
      | none => scope :: match chain.outer? scope with
        | none => []
        | some outer => table.unentered chain outer := by
  rw [unentered, ScopeChain.outward_eq rooted, List.takeWhile_cons]
  cases table.next.lookup scope with
  | some extent => rfl
  | none => cases chain.outer? scope <;> rfl

theorem firstFree_of_mem_unentered (rooted : chain.Rooted) {scope inner : Nat}
    (member : scope ∈ table.unentered chain inner) :
    table.next.lookup scope = none ∧ table.firstFree chain scope = table.firstFree chain inner := by
  induction inner using Nat.strongRecOn with
  | _ inner ih =>
      rw [unentered_eq rooted] at member
      rw [firstFree_eq rooted inner]
      cases entry : table.next.lookup inner with
      | some extent => simp [entry] at member
      | none =>
          simp only [entry] at member ⊢
          rcases List.mem_cons.mp member with rfl | further
          · refine ⟨entry, ?_⟩
            rw [firstFree_eq rooted scope, entry]
          · cases around : chain.outer? inner with
            | none => simp [around] at further
            | some outer =>
                have below := rooted inner outer around
                exact ih outer below (by simpa [around] using further)

theorem lookup_map_append {keys : List ScopeId} {extent : Extent}
    {entries : List (ScopeId × Extent)} (scope : ScopeId) :
    ((keys.map (·, extent)) ++ entries).lookup scope =
      if scope ∈ keys then some extent else entries.lookup scope := by
  induction keys with
  | nil => simp
  | cons key rest ih =>
      by_cases same : scope = key
      · simp [same]
      · have apart : (scope == key) = false := by simpa using same
        rw [List.map_cons, List.cons_append, List.lookup_cons, apart, ih]
        simp [same]

theorem lookup_enter (table : VariableTable) (chain : ScopeChain) (scope other : ScopeId) :
    (table.enter chain scope).next.lookup other =
      if other ∈ table.unentered chain scope then some (table.firstFree chain scope)
      else table.next.lookup other :=
  lookup_map_append other

theorem firstFree_enter (rooted : chain.Rooted) (scope other : Nat) :
    (table.enter chain scope).firstFree chain other = table.firstFree chain other := by
  induction other using Nat.strongRecOn with
  | _ other ih =>
      rw [firstFree_eq rooted, lookup_enter]
      by_cases member : other ∈ table.unentered chain scope
      · rw [if_pos member]
        exact (firstFree_of_mem_unentered rooted member).2.symm
      · rw [if_neg member, firstFree_eq rooted other]
        cases table.next.lookup other with
        | some extent => rfl
        | none =>
            cases around : chain.outer? other with
            | none => rfl
            | some outer => exact ih outer (rooted other outer around)

theorem isSome_lookup_enter (rooted : chain.Rooted) (scope : Nat) {other : Nat}
    (entered : other = scope ∨ (table.next.lookup other).isSome) :
    ((table.enter chain scope).next.lookup other).isSome := by
  rw [lookup_enter]
  by_cases member : other ∈ table.unentered chain scope
  · rw [if_pos member]
    rfl
  · rw [if_neg member]
    rcases entered with rfl | already
    · rw [unentered_eq rooted] at member
      cases entry : table.next.lookup other with
      | some extent => rfl
      | none => simp [entry] at member
    · exact already

theorem firstFree_congr {chain' : ScopeChain} {scope : ScopeId}
    (same : chain'.outward scope = chain.outward scope) :
    table.firstFree chain' scope = table.firstFree chain scope := by
  rw [firstFree, firstFree, same]

theorem lookup_allocate (table : VariableTable) (chain : ScopeChain) (scope : ScopeId)
    (stack : Stack) (other : ScopeId) :
    (table.allocate chain scope stack).2.next.lookup other =
      if other = scope then some ((table.firstFree chain scope).grow stack)
      else (table.enter chain scope).next.lookup other := by
  by_cases same : other = scope
  · simp [allocate, same]
  · have apart : (other == scope) = false := by simpa using same
    simp [allocate, List.lookup_cons, apart, same]

/-- Taking a slot moves the start of no scope but the one it is taken in, provided that all inner
scopes have fixed theirs. -/
theorem firstFree_allocate (rooted : chain.Rooted) {scope : Nat} (stack : Stack)
    (entered : ∀ inner : Nat, inner ≠ 0 → inner < chain.size → (table.next.lookup inner).isSome)
    {other : Nat} :
    (table.allocate chain scope stack).2.firstFree chain other =
      if other = scope then (table.firstFree chain scope).grow stack
      else table.firstFree chain other := by
  by_cases same : other = scope
  · rw [firstFree_eq rooted, lookup_allocate, if_pos same, if_pos same]
  · rw [firstFree_eq rooted, lookup_allocate, if_neg same, if_neg same,
      ← firstFree_enter rooted scope other, firstFree_eq rooted other]
    cases already : (table.enter chain scope).next.lookup other with
    | some extent => rfl
    | none =>
        cases around : chain.outer? other with
        | none => rfl
        | some outer =>
            have inside := ScopeChain.lt_size_of_outer? around
            have below := rooted other outer around
            have fixed := isSome_lookup_enter rooted scope
              (.inr (entered other (Nat.ne_zero_of_lt below) inside))
            rw [already] at fixed
            cases fixed

end Resumable.VariableTable
