import Mathlib.Tactic.Tauto
import Resumable.Proofs.Scope.Symbols

/-! What a declaration does to the symbols: a new variable under a fresh local name and in the next
slot, which the name means from there on. -/

namespace Resumable.Symbols

structure Declared (scope : ScopeId) (name : String) (type : DataType) (mutable : Bool)
    (before : Symbols) (info : Variable) (after : Symbols) : Prop where
  sound : after.Sound
  extends_ : Extends scope before after
  fresh : before.variables.isTaken info.localName = false
  new : before.scopes.declaredHere? scope name = none
  id : info.id = before.variables.size
  count : after.variables.size = before.variables.size + 1
  found : after.variables.get? info.id = some info
  type : info.type = type
  mutable : info.mutable = mutable
  resolve? : ∀ other, after.scopes.resolve? scope other =
    if other = name then some info.id else before.scopes.resolve? scope other
  declaredHere? : ∀ other, after.scopes.declaredHere? scope other =
    if other = name then some info.id else before.scopes.declaredHere? scope other
  visible : ∀ var, var ∈ after.scopes.visible scope ↔
    var = info.id ∨ var ∈ before.scopes.visible scope
  open_ : Open scope before → Open scope after

section Bind

variable {chain chain' : ScopeChain} {scope : Nat} {name : String} {var : VarId}

/-- A binding changes no scope but one, and there it adds the last name. -/
structure Bound (scope : Nat) (name : String) (var : VarId) (chain chain' : ScopeChain) : Prop where
  inside : scope < chain.size
  size : chain'.size = chain.size
  others : ∀ other, other ≠ scope → chain'.scope? other = chain.scope? other
  here : ∀ entry, chain.scope? scope = some entry →
    chain'.scope? scope = some { entry with declared := entry.declared ++ [(name, var)] }

theorem bound_of_bind? (bound : chain.bind? scope name var = some chain') :
    Bound scope name var chain chain' := by
  obtain ⟨entry, present, size, scope?⟩ := ScopeChain.bind?_eq_some bound
  refine ⟨ScopeChain.lt_size_of_scope? present, size, ?_, ?_⟩
  · intro other apart
    rw [scope?, if_neg apart]
  · intro entry' present'
    rw [scope?, if_pos rfl, Option.some.inj (present.symm.trans present')]

namespace Bound

theorem cases_scope? (bound : Bound scope name var chain chain') {other : Nat} {entry : Scope}
    (present : chain'.scope? other = some entry) :
    (∃ old, other = scope ∧ chain.scope? scope = some old ∧
      entry = { old with declared := old.declared ++ [(name, var)] }) ∨
    (other ≠ scope ∧ chain.scope? other = some entry) := by
  by_cases same : other = scope
  · obtain ⟨old, before⟩ := ScopeChain.scope?_isSome bound.inside
    rw [same, bound.here old before] at present
    exact .inl ⟨old, same, before, (Option.some.inj present).symm⟩
  · exact .inr ⟨same, (bound.others other same).symm.trans present⟩

theorem outer?_eq (bound : Bound scope name var chain chain') (other : Nat) :
    chain'.outer? other = chain.outer? other := by
  by_cases same : other = scope
  · subst same
    obtain ⟨entry, present⟩ := ScopeChain.scope?_isSome bound.inside
    rw [ScopeChain.outer?, ScopeChain.outer?, bound.here entry present, present]
    rfl
  · rw [ScopeChain.outer?, ScopeChain.outer?, bound.others other same]

theorem rooted (bound : Bound scope name var chain chain') (rooted : chain.Rooted) :
    chain'.Rooted := by
  intro other outer found
  rw [bound.outer?_eq] at found
  exact rooted other outer found

theorem outward_eq (bound : Bound scope name var chain chain') (rooted : chain.Rooted)
    (other : Nat) : chain'.outward other = chain.outward other := by
  induction other using Nat.strongRecOn with
  | _ other ih =>
      rw [ScopeChain.outward_eq rooted, ScopeChain.outward_eq (bound.rooted rooted),
        bound.outer?_eq]
      cases around : chain.outer? other with
      | none => rfl
      | some outer => simp only [ih outer (rooted other outer around)]

theorem declaredHere?_eq (bound : Bound scope name var chain chain')
    (new : chain.declaredHere? scope name = none) (other : String) :
    chain'.declaredHere? scope other =
      if other = name then some var else chain.declaredHere? scope other := by
  obtain ⟨entry, present⟩ := ScopeChain.scope?_isSome bound.inside
  rw [ScopeChain.declaredHere?, ScopeChain.declaredHere?, bound.here entry present, present]
  rw [ScopeChain.declaredHere?, present] at new
  simp only [Option.bind_some] at new ⊢
  rw [List.lookup_append]
  by_cases same : other = name
  · simp [same, new]
  · have apart : (other == name) = false := by simpa using same
    simp [same, List.lookup_cons, apart]

theorem resolve?_eq (bound : Bound scope name var chain chain') (rooted : chain.Rooted)
    (new : chain.declaredHere? scope name = none) (other : String) :
    chain'.resolve? scope other =
      if other = name then some var else chain.resolve? scope other := by
  obtain ⟨around, shape, older⟩ := ScopeChain.outward_eq_cons rooted scope
  have further : ∀ wider ∈ around,
      chain'.declaredHere? wider other = chain.declaredHere? wider other := by
    intro wider member
    have apart : wider ≠ scope := Nat.ne_of_lt (older wider member)
    rw [ScopeChain.declaredHere?, ScopeChain.declaredHere?, bound.others wider apart]
  have behind : around.findSome? (chain'.declaredHere? · other) =
      around.findSome? (chain.declaredHere? · other) := by
    rw [← List.head?_filterMap, ← List.head?_filterMap, List.filterMap_congr further]
  rw [ScopeChain.resolve?, ScopeChain.resolve?, bound.outward_eq rooted, shape,
    List.findSome?_cons, List.findSome?_cons, bound.declaredHere?_eq new, behind]
  by_cases same : other = name
  · rw [if_pos same, if_pos same]
  · rw [if_neg same, if_neg same]

theorem mem_visible (bound : Bound scope name var chain chain') (rooted : chain.Rooted)
    (other : VarId) : other ∈ chain'.visible scope ↔ other = var ∨ other ∈ chain.visible scope := by
  obtain ⟨around, shape, older⟩ := ScopeChain.outward_eq_cons rooted scope
  have further : around.flatMap chain'.declaredIn = around.flatMap chain.declaredIn := by
    refine List.flatMap_congr fun wider member => ?_
    have apart : wider ≠ scope := Nat.ne_of_lt (older wider member)
    rw [ScopeChain.declaredIn, ScopeChain.declaredIn, bound.others wider apart]
  obtain ⟨entry, present⟩ := ScopeChain.scope?_isSome bound.inside
  have here : chain'.declaredIn scope = chain.declaredIn scope ++ [var] := by
    rw [ScopeChain.declaredIn, ScopeChain.declaredIn, bound.here entry present, present]
    simp
  rw [ScopeChain.visible, ScopeChain.visible, bound.outward_eq rooted, shape, List.flatMap_cons,
    List.flatMap_cons, here, further]
  simp only [List.mem_append, List.mem_singleton]
  tauto

end Bound
end Bind

section Declare

variable {symbols after : Symbols} {scope : Nat} {name : String} {type : DataType}
  {mutable parameter : Bool} {location : Location} {info : Variable}

theorem Extent.le_join_left (a b : Extent) (stack : Stack) : a.on stack ≤ (a.join b).on stack := by
  cases stack
  · exact Nat.le_max_left _ _
  · exact Nat.le_max_left _ _

theorem Extent.le_join_right (a b : Extent) (stack : Stack) : b.on stack ≤ (a.join b).on stack := by
  cases stack
  · exact Nat.le_max_right _ _
  · exact Nat.le_max_right _ _

theorem Extent.on_join (a b : Extent) (stack : Stack) :
    (a.join b).on stack = max (a.on stack) (b.on stack) := by
  cases stack <;> rfl

theorem Extent.on_grow (extent : Extent) (stack other : Stack) :
    (extent.grow stack).on other = if other = stack then extent.on other + 1
      else extent.on other := by
  cases stack <;> cases other <;> simp [Extent.grow, Extent.on]

theorem get?_push {table : VariableTable} (info : Variable) (var : Nat) :
    ({ table with vars := table.vars.push info } : VariableTable).get? var =
      if var = table.size then some info else table.get? var := by
  simp only [VariableTable.get?, VariableTable.size, Array.getElem?_push]
  rfl

/-- A declaration is refused, is registered and bound, or is registered for a scope that does not
exist. -/
theorem declare_cases (symbols : Symbols) (scope : Nat) (name : String) (type : DataType)
    (mutable parameter : Bool) (location : Location) :
    (∃ var clash, symbols.scopes.declaredHere? scope name = some var ∧
      symbols.declare scope name type mutable parameter location =
        (.error ⟨.lowering (.redeclared name clash), location⟩, symbols)) ∨
    (symbols.scopes.declaredHere? scope name = none ∧ ∃ chain,
      symbols.scopes.bind? scope name
        (symbols.register scope name type mutable parameter location).1.id = some chain ∧
      symbols.declare scope name type mutable parameter location =
        (.ok (symbols.register scope name type mutable parameter location).1,
          ⟨chain, (symbols.register scope name type mutable parameter location).2⟩)) ∨
    (symbols.scopes.declaredHere? scope name = none ∧ symbols.scopes.scope? scope = none ∧
      symbols.declare scope name type mutable parameter location =
        (.error { fault := .graph (.noScope scope) },
          ⟨symbols.scopes, (symbols.register scope name type mutable parameter location).2⟩)) := by
  unfold declare
  cases existing : symbols.scopes.declaredHere? scope name with
  | some var => exact .inl ⟨var, _, rfl, rfl⟩
  | none =>
      dsimp only
      cases bound : symbols.scopes.bind? scope name
          (symbols.register scope name type mutable parameter location).1.id with
      | none => exact .inr (.inr ⟨rfl, Option.map_eq_none_iff.mp bound, by simp only⟩)
      | some chain => exact .inr (.inl ⟨rfl, chain, rfl, by simp only⟩)

theorem declare_eq_ok
    (declared : symbols.declare scope name type mutable parameter location = (.ok info, after)) :
    symbols.scopes.declaredHere? scope name = none ∧
      info = (symbols.register scope name type mutable parameter location).1 ∧
      after.variables = (symbols.register scope name type mutable parameter location).2 ∧
      symbols.scopes.bind? scope name info.id = some after.scopes := by
  rcases symbols.declare_cases scope name type mutable parameter location with
    ⟨_, _, _, same⟩ | ⟨new, chain, bound, same⟩ | ⟨_, _, same⟩
  · cases declared.symm.trans same
  · cases declared.symm.trans same
    exact ⟨new, rfl, rfl, bound⟩
  · cases declared.symm.trans same

/-- What a registration gives out and what it changes. -/
structure Registered (scope : ScopeId) (stack : Stack) (symbols : Symbols) (info : Variable)
    (table : VariableTable) : Prop where
  id : info.id = symbols.variables.size
  inside : info.scope = scope
  fresh : symbols.variables.isTaken info.localName = false
  packed : info.encoding = info.type.encoding
  slot : info.slot = ⟨stack, (symbols.variables.firstFree symbols.scopes scope).on stack⟩
  held : info.encoding.stack = stack
  vars : table.vars = symbols.variables.vars.push info
  count : table.size = symbols.variables.size + 1
  get? : ∀ var : Nat, table.get? var =
    if var = symbols.variables.size then some info else symbols.variables.get? var
  next : table.next = (symbols.variables.allocate symbols.scopes scope stack).2.next
  frame : table.frame = symbols.variables.frame.join
    ((symbols.variables.firstFree symbols.scopes scope).grow stack)

theorem register_registered (symbols : Symbols) (scope : Nat) (name : String) (type : DataType)
    (mutable parameter : Bool) (location : Location) :
    Registered scope type.encoding.stack symbols
      (symbols.register scope name type mutable parameter location).1
      (symbols.register scope name type mutable parameter location).2 where
  id := rfl
  inside := rfl
  fresh := VariableTable.freshName_not_taken _ _
  packed := rfl
  slot := rfl
  held := rfl
  vars := rfl
  count := by simp [register, VariableTable.size, VariableTable.allocate, VariableTable.enter]
  get? := fun var => get?_push _ var
  next := rfl
  frame := rfl

namespace Registered

variable {stack : Stack} {table : VariableTable} {chain : ScopeChain} {var : VarId}

theorem old_lt {old : Variable} {other : Nat} (present : symbols.variables.get? other = some old) :
    other < symbols.variables.size := by
  obtain ⟨inside, _⟩ := Array.getElem?_eq_some_iff.mp present
  exact inside

theorem get?_old (registered : Registered scope stack symbols info table) {old : Variable}
    {other : Nat} (present : symbols.variables.get? other = some old) :
    table.get? other = some old := by
  rw [registered.get?, if_neg (Nat.ne_of_lt (old_lt present)), present]

theorem get?_new (registered : Registered scope stack symbols info table) :
    table.get? info.id = some info := by
  rw [registered.get?, if_pos registered.id]

theorem cases_get? (registered : Registered scope stack symbols info table) {found : Variable}
    {other : Nat} (present : table.get? other = some found) :
    (other = symbols.variables.size ∧ found = info) ∨
      (other < symbols.variables.size ∧ symbols.variables.get? other = some found) := by
  rw [registered.get?] at present
  split at present
  · rename_i same
    exact .inl ⟨same, (Option.some.inj present).symm⟩
  · exact .inr ⟨old_lt present, present⟩

theorem slot_lt (registered : Registered scope stack symbols info table) :
    info.slot.index < ((symbols.variables.firstFree symbols.scopes scope).grow stack).on
      info.slot.stack := by
  rw [registered.slot]
  simp [Extent.on_grow]

theorem frame_le (registered : Registered scope stack symbols info table) (other : Stack) :
    symbols.variables.frame.on other ≤ table.frame.on other := by
  rw [registered.frame]
  exact Extent.le_join_left _ _ _

theorem firstFree (registered : Registered scope stack symbols info table)
    (sound : symbols.Sound) (bound : Bound scope name var symbols.scopes chain) (other : Nat) :
    table.firstFree chain other =
      if other = scope then (symbols.variables.firstFree symbols.scopes scope).grow stack
      else symbols.variables.firstFree symbols.scopes other := by
  rw [VariableTable.firstFree_congr (bound.outward_eq sound.rooted other)]
  rw [← VariableTable.firstFree_allocate sound.rooted stack sound.entered,
    VariableTable.firstFree, VariableTable.firstFree, registered.next]

theorem sound (registered : Registered scope stack symbols info table) (sound : symbols.Sound)
    (bound : Bound scope name info.id symbols.scopes chain) : Sound ⟨chain, table⟩ := by
  refine ⟨bound.rooted sound.rooted, ?_, ?_, ?_, ?_, ?_, ?_, ?_, ?_⟩
  · exact Nat.lt_of_lt_of_eq sound.inhabited bound.size.symm
  · intro other some_ inside
    have before := sound.entered other some_ (Nat.lt_of_lt_of_eq inside bound.size)
    rw [registered.next, VariableTable.lookup_allocate]
    split
    · rfl
    · exact VariableTable.isSome_lookup_enter sound.rooted scope (.inr before)
  · intro other beyond
    have outside : symbols.scopes.size ≤ other := Nat.le_trans (Nat.le_of_eq bound.size.symm) beyond
    have apart : other ≠ scope := Nat.ne_of_gt (Nat.lt_of_lt_of_le bound.inside outside)
    rw [registered.next, VariableTable.lookup_allocate, if_neg apart, VariableTable.lookup_enter,
      if_neg, sound.ahead other outside]
    intro member
    have around := (List.takeWhile_sublist _).mem member
    have below := ScopeChain.le_of_mem_outward sound.rooted around
    exact apart (Nat.le_antisymm below (Nat.le_of_lt (Nat.lt_of_lt_of_le bound.inside outside)))
  · intro other found present
    rcases registered.cases_get? present with ⟨same, rfl⟩ | ⟨_, old⟩
    · rw [same, registered.id]
    · exact sound.numbered other found old
  · intro other found present
    rcases registered.cases_get? present with ⟨_, rfl⟩ | ⟨_, old⟩
    · exact ⟨registered.packed, by rw [registered.slot, registered.held]⟩
    · exact sound.packed other found old
  · intro other found present
    rcases registered.cases_get? present with ⟨_, rfl⟩ | ⟨_, old⟩
    · have below := Extent.le_join_right symbols.variables.frame
        ((symbols.variables.firstFree symbols.scopes scope).grow stack) found.slot.stack
      rw [← registered.frame] at below
      exact Nat.lt_of_lt_of_le registered.slot_lt below
    · exact Nat.lt_of_lt_of_le (sound.framed other found old) (registered.frame_le _)
  · intro var other found found' present present' same
    have untaken : ∀ {old : Variable} {index : Nat}, symbols.variables.get? index = some old →
        old.localName ≠ info.localName := by
      intro old index here equal
      have taken : symbols.variables.isTaken info.localName = true := by
        rw [VariableTable.isTaken_iff, ← equal]
        exact List.mem_map_of_mem (Array.mem_toList_iff.mpr (Array.mem_of_getElem? here))
      rw [registered.fresh] at taken
      cases taken
    rcases registered.cases_get? present with ⟨here, rfl⟩ | ⟨_, old⟩
    · rcases registered.cases_get? present' with ⟨here', _⟩ | ⟨_, old'⟩
      · exact here.trans here'.symm
      · exact absurd same.symm (untaken old')
    · rcases registered.cases_get? present' with ⟨_, rfl⟩ | ⟨_, old'⟩
      · exact absurd same (untaken old)
      · exact sound.named var other found found' old old' same
  · intro other entry present found member
    have more : symbols.variables.size < table.size := by
      rw [registered.count]
      exact Nat.lt_succ_self _
    rcases bound.cases_scope? present with ⟨old, rfl, before, rfl⟩ | ⟨_, before⟩
    · rcases List.mem_append.mp member with early | new
      · exact Nat.lt_trans (sound.declared other old before found early) more
      · rw [List.mem_singleton.mp new]
        exact Nat.lt_of_le_of_lt (Nat.le_of_eq registered.id) more
    · exact Nat.lt_trans (sound.declared other entry before found member) more

theorem extends_ (registered : Registered scope stack symbols info table) (sound : symbols.Sound)
    (bound : Bound scope name info.id symbols.scopes chain) :
    Extends scope symbols ⟨chain, table⟩ where
  sizes := Nat.le_of_eq bound.size.symm
  scopes := by
    intro other entry present
    by_cases same : other = scope
    · subst same
      refine ⟨[(name, info.id)], bound.here entry present, fun apart => absurd rfl apart, ?_⟩
      intro found member
      rw [List.mem_singleton.mp member]
      exact Nat.le_of_eq registered.id.symm
    · refine ⟨[], ?_, fun _ => rfl, by simp⟩
      simpa using (bound.others other same).trans present
  count := by
    rw [registered.count]
    exact Nat.le_succ _
  kept := fun _ _ present => registered.get?_old present
  starts := by
    intro other apart _
    rw [registered.firstFree sound bound, if_neg apart]
  frame := registered.frame_le

theorem open_ (registered : Registered scope stack symbols info table) (sound : symbols.Sound)
    (bound : Bound scope name info.id symbols.scopes chain) (open_ : Open scope symbols) :
    Open scope ⟨chain, table⟩ := by
  have visible := bound.mem_visible sound.rooted
  have older : ∀ {var : Nat} {found : Variable}, var ∈ chain.visible scope →
      table.get? var = some found → (var = info.id ∧ found = info) ∨
        (var ∈ symbols.scopes.visible scope ∧ symbols.variables.get? var = some found) := by
    intro var found seen present
    rcases (visible var).mp seen with new | old
    · rw [new, registered.get?_new] at present
      exact .inl ⟨new, (Option.some.inj present).symm⟩
    · rcases registered.cases_get? present with ⟨last, same⟩ | ⟨_, present'⟩
      · exact .inl ⟨last.trans registered.id.symm, same⟩
      · exact .inr ⟨old, present'⟩
  have lower : ∀ {var : Nat} {found : Variable}, var ∈ symbols.scopes.visible scope →
      symbols.variables.get? var = some found → found.slot ≠ info.slot := by
    intro var found seen present same
    have room := open_.room var seen found present
    rw [same, registered.slot] at room
    exact Nat.lt_irrefl _ room
  refine ⟨Nat.lt_of_lt_of_eq open_.inside bound.size.symm, ?_, ?_⟩
  · intro var seen found present
    rw [registered.firstFree sound bound, if_pos rfl]
    rcases older seen present with ⟨_, rfl⟩ | ⟨seen', present'⟩
    · exact registered.slot_lt
    · have room := open_.room var seen' found present'
      rw [Extent.on_grow]
      split
      · exact Nat.lt_succ_of_lt room
      · exact room
  · intro var seen other seen' found found' present present' same
    rcases older seen present with ⟨here, rfl⟩ | ⟨old, inside⟩
    · rcases older seen' present' with ⟨here', _⟩ | ⟨old', inside'⟩
      · exact here.trans here'.symm
      · exact absurd same.symm (lower old' inside')
    · rcases older seen' present' with ⟨_, rfl⟩ | ⟨old', inside'⟩
      · exact absurd same (lower old inside)
      · exact open_.apart var old other old' found found' inside inside' same

end Registered

theorem declare_declared (sound : symbols.Sound)
    (declared : symbols.declare scope name type mutable parameter location = (.ok info, after)) :
    Declared scope name type mutable symbols info after := by
  obtain ⟨new, same, table, bound⟩ := declare_eq_ok declared
  have bound := bound_of_bind? bound
  have registered := register_registered symbols scope name type mutable parameter location
  rw [← same, ← table] at registered
  refine ⟨registered.sound sound bound, registered.extends_ sound bound, registered.fresh, new,
    registered.id, registered.count, registered.get?_new, ?_, ?_,
    bound.resolve?_eq sound.rooted new, bound.declaredHere?_eq new,
    bound.mem_visible sound.rooted, registered.open_ sound bound⟩
  · rw [same]
    rfl
  · rw [same]
    rfl

end Declare
end Resumable.Symbols
