import Mathlib
import Resumable.Proofs.Scope.Calls
import Resumable.Proofs.Scope.Tree

/-! The search for a name, the list of what is visible and the test for a scope around another tell
the same, however scopes were opened and names declared in scopes that exist. -/

namespace Resumable

section Entries

variable {α β : Type} [BEq α] {entries : List (α × β)} {name : α} {thing : β}

/-- Where no name stands twice, a name is looked up with whatever it stands for. -/
theorem lookup_eq_some_iff_mem [LawfulBEq α] (distinct : (entries.map Prod.fst).Nodup) :
    entries.lookup name = some thing ↔ (name, thing) ∈ entries := by
  rw [List.lookup_eq_some_iff]
  constructor
  · rintro ⟨before, behind, rfl, _⟩
    simp
  · intro member
    obtain ⟨before, behind, rfl⟩ := List.append_of_mem member
    refine ⟨before, behind, rfl, fun entry early => ?_⟩
    rw [List.map_append, List.map_cons, List.nodup_append] at distinct
    have apart := distinct.2.2 entry.1 (List.mem_map_of_mem early) name List.mem_cons_self
    simpa using apart.symm

theorem lookup_eq_find?_map {named : β → Bool}
    (tells : ∀ entry ∈ entries, named entry.2 = (name == entry.1)) :
    entries.lookup name = (entries.map Prod.snd).find? named := by
  induction entries with
  | nil => rfl
  | cons entry rest ih =>
      have behind := ih fun other member => tells other (List.mem_cons_of_mem _ member)
      have first := tells entry List.mem_cons_self
      rw [List.lookup_cons, List.map_cons, List.find?_cons, first, behind]

end Entries

namespace ScopeChain

variable {chain : ScopeChain} {scope outer : ScopeId}

theorem isWithin_iff : chain.isWithin scope outer = true ↔ outer ∈ chain.outward scope :=
  List.contains_iff_mem

/-- What a scope has for a name when a later entry takes the place of an earlier one. -/
def latestHere? (chain : ScopeChain) (scope : ScopeId) (name : String) : Option VarId :=
  (chain.scope? scope).bind fun entry => entry.declared.reverse.lookup name

end ScopeChain

namespace Symbols

variable {symbols : Symbols} {scope : Nat} {name : String} {var : Nat} {info : Variable}

/-- What openings inside scopes there are and declarations in scopes there are lead to. A
declaration may fail. -/
def Arisen (symbols : Symbols) : Prop :=
  ∃ numbers, Reached (fun symbols scope => scope < symbols.scopes.size) symbols numbers

/-- Scopes and table record the same: a scope has a variable under a name exactly if the table has
that variable with this name and scope. -/
structure Consistent (symbols : Symbols) : Prop where
  rooted : symbols.scopes.Rooted
  housed : ∀ {var : Nat} {info}, symbols.variables.get? var = some info →
    (info.scope : Nat) < symbols.scopes.size
  recorded : ∀ {scope : Nat} {entry}, symbols.scopes.scope? scope = some entry →
    ∀ {name : String} {var : Nat}, (name, var) ∈ entry.declared ↔
      ∃ info, symbols.variables.get? var = some info ∧ info.scope = scope ∧ info.name = name
  distinct : ∀ {scope : Nat} {entry}, symbols.scopes.scope? scope = some entry →
    (entry.declared.map Prod.fst).Nodup

def isNamed (symbols : Symbols) (name : String) (var : VarId) : Bool :=
  (symbols.variables.get? var).any fun info => name == info.name

theorem Registered.exists_iff {stack : Stack} {table : VariableTable} {holds : Variable → Prop}
    (registered : Registered scope stack symbols info table) :
    (∃ found, table.get? var = some found ∧ holds found) ↔
      (var = info.id ∧ holds info) ∨
        ∃ found, symbols.variables.get? var = some found ∧ holds found := by
  constructor
  · rintro ⟨found, present, true_⟩
    rcases registered.cases_get? present with ⟨last, rfl⟩ | ⟨_, old⟩
    · exact .inl ⟨last.trans registered.id.symm, true_⟩
    · exact .inr ⟨found, old, true_⟩
  · rintro (⟨rfl, true_⟩ | ⟨found, old, true_⟩)
    · exact ⟨info, registered.get?_new, true_⟩
    · exact ⟨found, registered.get?_old old, true_⟩

namespace Consistent

theorem initial : Consistent {} where
  rooted := ScopeChain.rooted_initial
  housed := by simp [VariableTable.get?]
  recorded := by
    intro scope entry present name var
    obtain ⟨_, rfl⟩ := ScopeChain.eq_root_of_scope?_initial present
    simp [VariableTable.get?]
  distinct := by
    intro scope entry present
    obtain ⟨_, rfl⟩ := ScopeChain.eq_root_of_scope?_initial present
    exact List.nodup_nil

theorem opens (consistent : symbols.Consistent) {outer : Nat}
    (inside : outer < symbols.scopes.size) :
    Consistent ⟨symbols.scopes.openScope outer, symbols.variables⟩ where
  rooted := ScopeChain.rooted_openScope consistent.rooted inside
  housed := by
    intro var info present
    rw [ScopeChain.size_openScope]
    exact Nat.lt_succ_of_lt (consistent.housed present)
  recorded := by
    intro scope entry present name var
    rw [ScopeChain.scope?_openScope] at present
    split at present
    · next last =>
      -- No variable is declared in a scope that was not there.
      cases present
      refine iff_of_false List.not_mem_nil ?_
      rintro ⟨info, found, here, _⟩
      have below := consistent.housed found
      rw [here, last] at below
      exact Nat.lt_irrefl _ below
    · exact consistent.recorded present
  distinct := by
    intro scope entry present
    rw [ScopeChain.scope?_openScope] at present
    split at present
    · cases present
      exact List.nodup_nil
    · exact consistent.distinct present

theorem enters (consistent : symbols.Consistent) (scope : ScopeId) :
    Consistent ⟨symbols.scopes, symbols.variables.enter symbols.scopes scope⟩ where
  rooted := consistent.rooted
  housed := consistent.housed
  recorded := consistent.recorded
  distinct := consistent.distinct

theorem binds (consistent : symbols.Consistent) {stack : Stack} {table : VariableTable}
    {chain : ScopeChain} (registered : Registered scope stack symbols info table)
    (named : info.name = name) (bound : Bound scope name info.id symbols.scopes chain)
    (new : symbols.scopes.declaredHere? scope name = none) : Consistent ⟨chain, table⟩ where
  rooted := bound.rooted consistent.rooted
  housed := by
    intro var found present
    rw [bound.size]
    rcases registered.cases_get? present with ⟨_, rfl⟩ | ⟨_, old⟩
    · rw [registered.inside]
      exact bound.inside
    · exact consistent.housed old
  recorded := by
    intro other entry present text var
    rw [registered.exists_iff, registered.inside]
    rcases bound.cases_scope? present with ⟨old, rfl, before, rfl⟩ | ⟨apart, before⟩
    · rw [List.mem_append, List.mem_singleton, Prod.mk.injEq, consistent.recorded before, named]
      grind
    · rw [consistent.recorded before]
      simp [apart.symm]
  distinct := by
    intro other entry present
    rcases bound.cases_scope? present with ⟨old, rfl, before, rfl⟩ | ⟨_, before⟩
    · rw [ScopeChain.declaredHere?, before] at new
      rw [List.map_append, List.map_singleton, ← List.concat_eq_append]
      refine (consistent.distinct before).concat fun taken => ?_
      obtain ⟨entry, member, rfl⟩ := List.mem_map.mp taken
      simpa using List.lookup_eq_none_iff.mp new entry member
    · exact consistent.distinct before

theorem declares (consistent : symbols.Consistent) (inside : scope < symbols.scopes.size)
    (type : DataType) (mutable parameter : Bool) (location : Location) :
    (symbols.declare scope name type mutable parameter location).2.Consistent := by
  rcases symbols.declare_cases scope name type mutable parameter location with
    ⟨_, _, _, refused⟩ | ⟨new, chain, bound, done⟩ | ⟨_, missing, _⟩
  · rw [refused]
    exact consistent
  · rw [done]
    have registered := register_registered symbols scope name type mutable parameter location
    exact consistent.binds registered rfl (bound_of_bind? bound) new
  · obtain ⟨entry, present⟩ := ScopeChain.scope?_isSome inside
    cases missing.symm.trans present

theorem declaredHere?_eq_some_iff (consistent : symbols.Consistent) :
    symbols.scopes.declaredHere? scope name = some var ↔
      ∃ info, symbols.variables.get? var = some info ∧ info.scope = scope ∧ info.name = name := by
  cases present : symbols.scopes.scope? scope with
  | none =>
      rw [ScopeChain.declaredHere?, present]
      refine iff_of_false (by simp) ?_
      rintro ⟨info, found, rfl, _⟩
      obtain ⟨entry, here⟩ := ScopeChain.scope?_isSome (consistent.housed found)
      cases present.symm.trans here
  | some entry =>
      rw [ScopeChain.declaredHere?, present, ← consistent.recorded present]
      exact lookup_eq_some_iff_mem (consistent.distinct present)

theorem latestHere?_eq (consistent : symbols.Consistent) (scope : Nat) (name : String) :
    symbols.scopes.latestHere? scope name = symbols.scopes.declaredHere? scope name := by
  rw [ScopeChain.latestHere?, ScopeChain.declaredHere?]
  cases present : symbols.scopes.scope? scope with
  | none => rfl
  | some entry =>
      have distinct := consistent.distinct present
      have backward : (entry.declared.reverse.map Prod.fst).Nodup := by
        rwa [List.map_reverse, List.nodup_reverse]
      refine Option.ext fun var => ?_
      rw [Option.bind_some, Option.bind_some, lookup_eq_some_iff_mem backward,
        lookup_eq_some_iff_mem distinct, List.mem_reverse]

theorem mem_declaredIn_iff_here (consistent : symbols.Consistent) :
    var ∈ symbols.scopes.declaredIn scope ↔
      ∃ name, symbols.scopes.declaredHere? scope name = some var := by
  simp only [ScopeChain.declaredIn, ScopeChain.declaredHere?]
  cases present : symbols.scopes.scope? scope with
  | none => simp
  | some entry =>
      simp only [Option.bind_some, lookup_eq_some_iff_mem (consistent.distinct present)]
      rw [List.mem_map]
      constructor
      · rintro ⟨⟨name, _⟩, member, rfl⟩
        exact ⟨name, member⟩
      · rintro ⟨name, member⟩
        exact ⟨_, member, rfl⟩

theorem mem_declaredIn_iff (consistent : symbols.Consistent) :
    var ∈ symbols.scopes.declaredIn scope ↔
      ∃ info, symbols.variables.get? var = some info ∧ info.scope = scope := by
  rw [consistent.mem_declaredIn_iff_here]
  simp only [consistent.declaredHere?_eq_some_iff]
  constructor
  · rintro ⟨_, info, found, here, _⟩
    exact ⟨info, found, here⟩
  · rintro ⟨info, found, here⟩
    exact ⟨info.name, info, found, here, rfl⟩

theorem nodup_declaredIn (consistent : symbols.Consistent) (scope : Nat) :
    (symbols.scopes.declaredIn scope).Nodup := by
  cases present : symbols.scopes.scope? scope with
  | none =>
      rw [ScopeChain.declaredIn, present]
      exact List.nodup_nil
  | some entry =>
      rw [ScopeChain.declaredIn, present]
      -- The table has one name for each variable, so no variable stands under two.
      refine List.Nodup.map_on ?_ (consistent.distinct present).of_map
      rintro ⟨name, var⟩ member ⟨other, _⟩ member' rfl
      obtain ⟨info, found, _, rfl⟩ := (consistent.recorded present).mp member
      obtain ⟨info', found', _, rfl⟩ := (consistent.recorded present).mp member'
      rw [Option.some.inj (found.symm.trans found')]

theorem declaredHere?_eq_find? (consistent : symbols.Consistent) (scope : Nat) (name : String) :
    symbols.scopes.declaredHere? scope name =
      (symbols.scopes.declaredIn scope).find? (symbols.isNamed name) := by
  rw [ScopeChain.declaredHere?, ScopeChain.declaredIn]
  cases present : symbols.scopes.scope? scope with
  | none => rfl
  | some entry =>
      refine lookup_eq_find?_map fun pair member => ?_
      obtain ⟨info, found, _, same⟩ := (consistent.recorded present).mp member
      rw [isNamed, found, Option.any_some, same]

theorem resolve?_eq_find? (consistent : symbols.Consistent) (scope : Nat) (name : String) :
    symbols.scopes.resolve? scope name =
      (symbols.scopes.visible scope).find? (symbols.isNamed name) := by
  rw [ScopeChain.resolve?, ScopeChain.visible, List.find?_flatMap]
  simp only [consistent.declaredHere?_eq_find?]

theorem nodup_visible (consistent : symbols.Consistent) (scope : Nat) :
    (symbols.scopes.visible scope).Nodup := by
  refine ScopeChain.visible_nodup consistent.rooted consistent.nodup_declaredIn
    (fun here there => ?_) scope
  obtain ⟨info, found, rfl⟩ := consistent.mem_declaredIn_iff.mp here
  obtain ⟨info', found', rfl⟩ := consistent.mem_declaredIn_iff.mp there
  rw [Option.some.inj (found.symm.trans found')]

theorem mem_visible_iff (consistent : symbols.Consistent) :
    var ∈ symbols.scopes.visible scope ↔
      ∃ info, symbols.variables.get? var = some info ∧
        symbols.scopes.isWithin scope info.scope = true := by
  rw [ScopeChain.visible, List.mem_flatMap]
  constructor
  · rintro ⟨outer, around, here⟩
    obtain ⟨info, found, rfl⟩ := consistent.mem_declaredIn_iff.mp here
    exact ⟨info, found, ScopeChain.isWithin_iff.mpr around⟩
  · rintro ⟨info, found, within⟩
    exact ⟨info.scope, ScopeChain.isWithin_iff.mp within,
      consistent.mem_declaredIn_iff.mpr ⟨info, found, rfl⟩⟩

end Consistent

namespace Arisen

theorem initial : Arisen {} := ⟨_, .initial⟩

theorem opens (arisen : symbols.Arisen) (outer : Nat) (inside : outer < symbols.scopes.size) :
    Arisen ⟨symbols.scopes.openScope outer, symbols.variables⟩ :=
  arisen.imp fun _ reached => reached.opens outer inside

theorem enters (arisen : symbols.Arisen) (scope : ScopeId) :
    Arisen ⟨symbols.scopes, symbols.variables.enter symbols.scopes scope⟩ :=
  arisen.imp fun _ reached => reached.enters scope

theorem declares (arisen : symbols.Arisen) (scope : Nat) (name : String) (type : DataType)
    (mutable parameter : Bool) (location : Location) (inside : scope < symbols.scopes.size) :
    Arisen (symbols.declare scope name type mutable parameter location).2 :=
  let ⟨_, reached⟩ := arisen
  reached.declare inside

theorem consistent (arisen : symbols.Arisen) : symbols.Consistent := by
  obtain ⟨_, reached⟩ := arisen
  induction reached with
  | initial => exact .initial
  | opens outer _ inside ih => exact ih.opens inside
  | enters scope _ ih => exact ih.enters scope
  | refuses scope name type mutable parameter location _ inside _ ih
  | declares scope name type mutable parameter location _ inside _ _ ih =>
      exact ih.declares inside type mutable parameter location

/-- From every scope all walks outward end. The search for a name finds the first variable of that
name among all that are visible, and none if there is none. What is visible is listed once, and it is
what was declared in the scope or in one around it. In each scope the names stand for the variables
that are listed there, and it makes no difference whether a later entry for a name would take the
place of an earlier one. -/
theorem searches_agree (arisen : symbols.Arisen) (scope : ScopeId) :
    symbols.scopes.WalksEnd scope ∧
    (∀ name, symbols.scopes.resolve? scope name =
      (symbols.scopes.visible scope).find? (symbols.isNamed name)) ∧
    (symbols.scopes.visible scope).Nodup ∧
    (∀ (var : Nat) info, symbols.variables.get? var = some info →
      (var ∈ symbols.scopes.visible scope ↔
        symbols.scopes.isWithin scope info.scope = true)) ∧
    (∀ var ∈ symbols.scopes.visible scope, (symbols.variables.get? var).isSome) ∧
    (∀ var, var ∈ symbols.scopes.declaredIn scope ↔
      ∃ name, symbols.scopes.declaredHere? scope name = some var) ∧
    (∀ name, symbols.scopes.latestHere? scope name = symbols.scopes.declaredHere? scope name) := by
  have consistent := arisen.consistent
  have ends := ScopeChain.isTree_iff_walksEnd.mp consistent.rooted.isTree scope
  refine ⟨ends, consistent.resolve?_eq_find? scope, consistent.nodup_visible scope,
    fun var info found => ?_, fun var seen => ?_, fun var => consistent.mem_declaredIn_iff_here,
    consistent.latestHere?_eq scope⟩
  · rw [consistent.mem_visible_iff, found]
    simp
  · obtain ⟨info, found, _⟩ := consistent.mem_visible_iff.mp seen
    exact Option.isSome_of_eq_some found

/-- A name is declared in two scopes, one inside the other, and again beside them. It is declared
twice in the inner one, where the second declaration fails. -/
theorem searches_agree_shadow : ∃ symbols, Arisen symbols ∧ symbols.variables.size = 5 ∧
    symbols.scopes.visible 2 = [3, 2, 0, 1] ∧ (symbols.scopes.visible 2).Nodup ∧
    symbols.scopes.resolve? 2 "x" = some 2 ∧ symbols.scopes.resolve? 3 "x" = some 4 ∧
    symbols.scopes.resolve? 2 "x" =
      (symbols.scopes.visible 2).find? (symbols.isNamed "x") ∧
    ∃ info, symbols.variables.get? 4 = some info ∧
      (4 ∈ symbols.scopes.visible 2 ↔ symbols.scopes.isWithin 2 info.scope = true) := by
  have root := (Arisen.initial.declares 0 "x" .int false true {} (by decide)).declares 0 "y" .string
    true false {} (by decide)
  have outer := (root.opens 0 (by decide)).declares 1 "x" .double true false {} (by decide)
  have refused := outer.declares 1 "x" .bool false false {} (by decide)
  have inner := (refused.opens 1 (by decide)).declares 2 "z" .int false false {} (by decide)
  have arisen := ((inner.enters 2).opens 0 (by decide)).declares 3 "x" .char true false {}
    (by decide)
  obtain ⟨_, finds, once, within, _⟩ := arisen.searches_agree 2
  exact ⟨_, arisen, by cbv, by cbv, once, by cbv, by cbv, finds "x", _, rfl, within 4 _ rfl⟩

end Arisen
end Symbols
end Resumable
