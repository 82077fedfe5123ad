import Resumable.Proofs.Lowering.Changes

/-! Scopes that list variables of their own, each once. What is visible somewhere is listed there
once too, although names can be shadowed. -/

namespace Resumable

namespace Symbols

variable {symbols after : Symbols} {scope : Nat} {name : String} {type : DataType}
  {mutable parameter : Bool} {location : Location} {info : Variable}

/-- Every scope lists its own variables, each once. -/
structure Listed (symbols : Symbols) : Prop where
  own : ∀ scope var, var ∈ symbols.scopes.declaredIn scope →
    ∃ info, symbols.variables.get? var = some info ∧ info.scope = scope
  once : ∀ scope, (symbols.scopes.declaredIn scope).Nodup

theorem Listed.visible_nodup (listed : symbols.Listed) (rooted : symbols.scopes.Rooted)
    (scope : Nat) : (symbols.scopes.visible scope).Nodup := by
  refine ScopeChain.visible_nodup rooted listed.once (fun here there => ?_) scope
  obtain ⟨info, found, rfl⟩ := listed.own _ _ here
  obtain ⟨info', found', rfl⟩ := listed.own _ _ there
  rw [Option.some.inj (found.symm.trans found')]

theorem initial_listed : Listed {} := by
  have nothing : ∀ scope, ({} : Symbols).scopes.declaredIn scope = [] := by
    intro scope
    rw [ScopeChain.declaredIn]
    cases present : ({} : Symbols).scopes.scope? scope with
    | none => rfl
    | some entry =>
        obtain ⟨_, rfl⟩ := ScopeChain.eq_root_of_scope?_initial present
        rfl
  constructor <;> simp [nothing]

theorem Listed.openScope (listed : symbols.Listed) (outer : ScopeId) :
    (symbols.openScope outer).2.Listed := by
  have same : ∀ scope, (symbols.scopes.openScope outer).declaredIn scope =
      if scope = symbols.scopes.size then [] else symbols.scopes.declaredIn scope := by
    intro scope
    rw [ScopeChain.declaredIn, ScopeChain.scope?_openScope]
    by_cases last : scope = symbols.scopes.size
    · rw [if_pos last, if_pos last]
      rfl
    · rw [if_neg last, if_neg last]
      rfl
  constructor
  · intro scope var member
    rw [Symbols.openScope, same] at member
    split at member
    · cases member
    · exact listed.own scope var member
  · intro scope
    rw [Symbols.openScope, same]
    split
    · exact List.nodup_nil
    · exact listed.once scope

theorem Listed.declare (listed : symbols.Listed)
    (declared : symbols.declare scope name type mutable parameter location = (.ok info, after)) :
    after.Listed := by
  obtain ⟨_, same, table, bound⟩ := declare_eq_ok declared
  have bound := bound_of_bind? bound
  have registered := register_registered symbols scope name type mutable parameter location
  rw [← same, ← table] at registered
  have older : ∀ {other : Nat} {var : VarId}, var ∈ symbols.scopes.declaredIn other →
      (var : Nat) < symbols.variables.size := by
    intro other var member
    obtain ⟨entry, found, _⟩ := listed.own other var member
    exact (Array.getElem?_eq_some_iff.mp found).1
  have old : ∀ {other : Nat} {var : VarId}, var ∈ symbols.scopes.declaredIn other →
      ∃ entry, after.variables.get? var = some entry ∧ entry.scope = other := by
    intro other var member
    rw [registered.get?, if_neg (Nat.ne_of_lt (older member))]
    exact listed.own other var member
  have here : after.scopes.declaredIn scope = symbols.scopes.declaredIn scope ++ [info.id] := by
    obtain ⟨entry, present⟩ := ScopeChain.scope?_isSome bound.inside
    rw [ScopeChain.declaredIn, ScopeChain.declaredIn, bound.here entry present, present]
    simp
  have others : ∀ other, other ≠ scope →
      after.scopes.declaredIn other = symbols.scopes.declaredIn other := by
    intro other apart
    rw [ScopeChain.declaredIn, ScopeChain.declaredIn, bound.others other apart]
  constructor
  · intro other var member
    by_cases last : other = scope
    · rw [last, here, List.mem_append, List.mem_singleton] at member
      rcases member with member | rfl
      · exact last ▸ old member
      · exact ⟨info, registered.get?_new, registered.inside.trans last.symm⟩
    · exact old (others other last ▸ member)
  · intro other
    by_cases last : other = scope
    · rw [last, here, ← List.concat_eq_append]
      refine (listed.once scope).concat fun member => ?_
      exact Nat.ne_of_lt (older member) registered.id
    · exact others other last ▸ listed.once other

end Symbols

theorem Draft.listed_building :
    Draft.Building fun _ before after => before.symbols.Listed → after.symbols.Listed where
  refl := fun _ listed => listed
  trans := fun first second listed => second (first listed)
  opens := by
    refine fun outer => ⟨fun before scope after done listed => ?_⟩
    cases done
    exact listed.openScope outer
  declares := by
    refine fun scope name type mutable parameter location =>
      ⟨fun before info after done listed => ?_⟩
    exact listed.declare (Lower.declare_symbols done).1
  resolves := fun _ _ _ => ⟨fun _ _ _ done listed => (Lower.resolve_same done).2 ▸ listed⟩
  warns := by
    refine fun cause location => ⟨fun before a after done listed => ?_⟩
    cases done
    exact listed
  adds := by
    refine fun kind scope location reads declares => ⟨fun before id after done listed => ?_⟩
    cases done
    exact ⟨listed.own, listed.once⟩
  connects := fun _ _ => ⟨fun _ _ _ done listed => (Lower.connect_ok done).2 ▸ listed⟩

theorem Body.build_listed {settings : Settings} {arity : Nat} {e : Expr} {body : Body}
    (done : Body.build settings arity e = .ok body) : body.symbols.Listed := by
  obtain ⟨_, draft, _, _, listed, _, symbols⟩ :=
    Body.build_does (fun _ _ => Draft.listed_building.lowering _) done
  exact symbols ▸ listed Symbols.initial_listed

end Resumable
