import Resumable.Proofs.Scope.Variables
import Resumable.Scope.Symbols

/-! What holds of the symbols of one body while it is lowered, and how they grow. -/

namespace Resumable.Symbols

/-- Symbols that nothing but opening scopes and declaring names has made. -/
structure Sound (symbols : Symbols) : Prop where
  rooted : symbols.scopes.Rooted
  inhabited : 0 < symbols.scopes.size
  entered : ∀ scope : Nat, scope ≠ 0 → scope < symbols.scopes.size →
    (symbols.variables.next.lookup scope).isSome
  ahead : ∀ scope : Nat, symbols.scopes.size ≤ scope →
    symbols.variables.next.lookup scope = none
  numbered : ∀ var info, symbols.variables.get? var = some info → info.id = var
  packed : ∀ var info, symbols.variables.get? var = some info →
    info.encoding = info.type.encoding ∧ info.slot.stack = info.encoding.stack
  framed : ∀ var info, symbols.variables.get? var = some info →
    info.slot.index < symbols.variables.frame.on info.slot.stack
  named : ∀ var other info info', symbols.variables.get? var = some info →
    symbols.variables.get? other = some info' → info.localName = info'.localName → var = other
  declared : ∀ scope entry, symbols.scopes.scope? scope = some entry →
    ∀ found ∈ entry.declared, (found.2 : Nat) < symbols.variables.size

/-- Symbols that grew while code in one scope was lowered: that scope has new names, and there may
be new scopes. -/
structure Extends (scope : ScopeId) (before after : Symbols) : Prop where
  sizes : before.scopes.size ≤ after.scopes.size
  scopes : ∀ other entry, before.scopes.scope? other = some entry → ∃ more,
    after.scopes.scope? other = some { entry with declared := entry.declared ++ more } ∧
    (other ≠ scope → more = []) ∧ ∀ found ∈ more, before.variables.size ≤ (found.2 : Nat)
  count : before.variables.size ≤ after.variables.size
  kept : ∀ var info, before.variables.get? var = some info →
    after.variables.get? var = some info
  starts : ∀ other : Nat, other ≠ scope → other < before.scopes.size →
    after.variables.firstFree after.scopes other = before.variables.firstFree before.scopes other
  frame : ∀ stack, before.variables.frame.on stack ≤ after.variables.frame.on stack

/-- A scope in which names can be declared: its next slot lies beyond those of all that is visible,
and these lie apart. -/
structure Open (scope : ScopeId) (symbols : Symbols) : Prop where
  inside : (scope : Nat) < symbols.scopes.size
  room : ∀ var ∈ symbols.scopes.visible scope, ∀ info,
    symbols.variables.get? var = some info →
    info.slot.index < (symbols.variables.firstFree symbols.scopes scope).on info.slot.stack
  apart : ∀ var ∈ symbols.scopes.visible scope, ∀ other ∈ symbols.scopes.visible scope,
    ∀ info info', symbols.variables.get? var = some info →
    symbols.variables.get? other = some info' → info.slot = info'.slot → var = other

namespace Extends

variable {scope child : ScopeId} {before middle after : Symbols}

theorem refl (scope : ScopeId) (symbols : Symbols) : Extends scope symbols symbols where
  sizes := Nat.le_refl _
  scopes := fun _ entry present => ⟨[], by simpa using present, fun _ => rfl, by simp⟩
  count := Nat.le_refl _
  kept := fun _ _ present => present
  starts := fun _ _ _ => rfl
  frame := fun _ => Nat.le_refl _

theorem trans_of {scope' : ScopeId} (first : Extends scope before middle)
    (second : Extends scope' middle after)
    (same : ∀ other : Nat, other < before.scopes.size → other ≠ scope → other ≠ scope') :
    Extends scope before after where
  sizes := Nat.le_trans first.sizes second.sizes
  scopes := by
    intro other entry present
    obtain ⟨more, later, elsewhere, new⟩ := first.scopes other entry present
    obtain ⟨more', later', elsewhere', new'⟩ := second.scopes other _ later
    refine ⟨more ++ more', by simpa using later', ?_, ?_⟩
    · intro apart
      have inside := ScopeChain.lt_size_of_scope? present
      rw [elsewhere apart, elsewhere' (same other inside apart)]
      rfl
    · intro found member
      rcases List.mem_append.mp member with early | late
      · exact new found early
      · exact Nat.le_trans first.count (new' found late)
  count := Nat.le_trans first.count second.count
  kept := fun var info present => second.kept var info (first.kept var info present)
  starts := by
    intro other apart inside
    rw [second.starts other (same other inside apart) (Nat.lt_of_lt_of_le inside first.sizes),
      first.starts other apart inside]
  frame := fun stack => Nat.le_trans (first.frame stack) (second.frame stack)

theorem trans (first : Extends scope before middle) (second : Extends scope middle after) :
    Extends scope before after :=
  first.trans_of second fun _ _ apart => apart

theorem in_child (first : Extends scope before middle) (second : Extends child middle after)
    (new : before.scopes.size ≤ (child : Nat)) : Extends scope before after :=
  first.trans_of second fun _ inside _ => Nat.ne_of_lt (Nat.lt_of_lt_of_le inside new)

theorem sameOuter (extends_ : Extends scope before after) :
    before.scopes.SameOuter after.scopes := by
  intro other inside
  obtain ⟨entry, present⟩ := ScopeChain.scope?_isSome inside
  obtain ⟨more, later, _, _⟩ := extends_.scopes other entry present
  simp [ScopeChain.outer?, present, later]

theorem outward_eq (extends_ : Extends scope before after) (sound : before.Sound)
    (sound' : after.Sound) {other : Nat} (inside : other < before.scopes.size) :
    after.scopes.outward other = before.scopes.outward other :=
  ScopeChain.outward_eq_of_sameOuter sound.rooted sound'.rooted extends_.sameOuter inside

theorem mem_declaredIn (extends_ : Extends scope before after) {other : Nat}
    (inside : other < before.scopes.size) {var : VarId} :
    (var ∈ before.scopes.declaredIn other → var ∈ after.scopes.declaredIn other) ∧
    (var ∈ after.scopes.declaredIn other →
      var ∈ before.scopes.declaredIn other ∨ before.variables.size ≤ (var : Nat)) := by
  obtain ⟨entry, present⟩ := ScopeChain.scope?_isSome inside
  obtain ⟨more, later, _, new⟩ := extends_.scopes other entry present
  simp only [ScopeChain.declaredIn, present, later, List.map_append, List.mem_append, List.mem_map]
  constructor
  · exact .inl
  · rintro (old | ⟨found, member, rfl⟩)
    · exact .inl old
    · exact .inr (new found member)

theorem declaredIn_eq (extends_ : Extends scope before after) {other : Nat}
    (inside : other < before.scopes.size) (apart : other ≠ scope) :
    after.scopes.declaredIn other = before.scopes.declaredIn other := by
  obtain ⟨entry, present⟩ := ScopeChain.scope?_isSome inside
  obtain ⟨more, later, elsewhere, _⟩ := extends_.scopes other entry present
  simp [ScopeChain.declaredIn, present, later, elsewhere apart]

theorem declaredHere?_eq (extends_ : Extends scope before after) {other : Nat}
    (inside : other < before.scopes.size) (apart : other ≠ scope) (name : String) :
    after.scopes.declaredHere? other name = before.scopes.declaredHere? other name := by
  obtain ⟨entry, present⟩ := ScopeChain.scope?_isSome inside
  obtain ⟨more, later, elsewhere, _⟩ := extends_.scopes other entry present
  simp [ScopeChain.declaredHere?, present, later, elsewhere apart]

theorem visible_subset (extends_ : Extends scope before after) (sound : before.Sound)
    (sound' : after.Sound) {other : Nat} (inside : other < before.scopes.size) {var : VarId}
    (seen : var ∈ before.scopes.visible other) : var ∈ after.scopes.visible other := by
  rw [ScopeChain.visible, List.mem_flatMap] at seen ⊢
  obtain ⟨outer, around, here⟩ := seen
  have below := ScopeChain.le_of_mem_outward sound.rooted around
  rw [extends_.outward_eq sound sound' inside]
  exact ⟨outer, around, (extends_.mem_declaredIn (Nat.lt_of_le_of_lt below inside)).1 here⟩

theorem visible_old (extends_ : Extends scope before after) (sound : before.Sound)
    (sound' : after.Sound) {other : Nat} (inside : other < before.scopes.size) {var : VarId}
    (seen : var ∈ after.scopes.visible other) :
    var ∈ before.scopes.visible other ∨ before.variables.size ≤ (var : Nat) := by
  rw [ScopeChain.visible, List.mem_flatMap] at seen ⊢
  obtain ⟨outer, around, here⟩ := seen
  rw [extends_.outward_eq sound sound' inside] at around
  have below := ScopeChain.le_of_mem_outward sound.rooted around
  rcases (extends_.mem_declaredIn (Nat.lt_of_le_of_lt below inside)).2 here with old | new
  · exact .inl ⟨outer, around, old⟩
  · exact .inr new

theorem visible_eq (extends_ : Extends scope before after) (sound : before.Sound)
    (sound' : after.Sound) {other : Nat} (inside : other < before.scopes.size)
    (apart : other < (scope : Nat)) : after.scopes.visible other = before.scopes.visible other := by
  rw [ScopeChain.visible, ScopeChain.visible, extends_.outward_eq sound sound' inside]
  refine List.flatMap_congr fun outer around => ?_
  have below := ScopeChain.le_of_mem_outward sound.rooted around
  have distinct : outer ≠ scope := Nat.ne_of_lt (Nat.lt_of_le_of_lt below apart)
  exact extends_.declaredIn_eq (Nat.lt_of_le_of_lt below inside) distinct

theorem resolve?_eq (extends_ : Extends scope before after) (sound : before.Sound)
    (sound' : after.Sound) {other : Nat} (inside : other < before.scopes.size)
    (apart : other < (scope : Nat)) (name : String) :
    after.scopes.resolve? other name = before.scopes.resolve? other name := by
  rw [ScopeChain.resolve?, ScopeChain.resolve?, extends_.outward_eq sound sound' inside]
  have same : ∀ outer ∈ before.scopes.outward other,
      after.scopes.declaredHere? outer name = before.scopes.declaredHere? outer name := by
    intro outer around
    have below := ScopeChain.le_of_mem_outward sound.rooted around
    have distinct : outer ≠ scope := Nat.ne_of_lt (Nat.lt_of_le_of_lt below apart)
    exact extends_.declaredHere?_eq (Nat.lt_of_le_of_lt below inside) distinct name
  rw [← List.head?_filterMap, ← List.head?_filterMap, List.filterMap_congr same]

end Extends

/-- A new scope that sees what the scope around it sees and starts where that stands. -/
structure Opened (outer : ScopeId) (before : Symbols) (child : ScopeId) (after : Symbols) :
    Prop where
  sound : after.Sound
  new : before.scopes.size ≤ (child : Nat)
  inside : (child : Nat) < after.scopes.size
  extends_ : ∀ scope, Extends scope before after
  count : after.variables.size = before.variables.size
  visible : after.scopes.visible child = before.scopes.visible outer
  resolve? : ∀ name, after.scopes.resolve? child name = before.scopes.resolve? outer name
  empty : ∀ name, after.scopes.declaredHere? child name = none
  open_ : Open outer before → Open child after

section OpenScope

variable {symbols : Symbols} {outer : Nat}

theorem size_openScope (symbols : Symbols) (outer : Nat) :
    (symbols.openScope outer).2.scopes.size = symbols.scopes.size + 1 :=
  ScopeChain.size_openScope symbols.scopes outer

theorem openScope_firstFree (sound : symbols.Sound) (inside : outer < symbols.scopes.size)
    {other : Nat} (below : other < symbols.scopes.size) :
    (symbols.openScope outer).2.variables.firstFree (symbols.openScope outer).2.scopes other =
      symbols.variables.firstFree symbols.scopes other := by
  have rooted := ScopeChain.rooted_openScope sound.rooted inside
  have outward := ScopeChain.outward_openScope_of_lt sound.rooted inside below
  exact (VariableTable.firstFree_enter rooted _ other).trans
    (VariableTable.firstFree_congr outward)

theorem openScope_firstFree_new (sound : symbols.Sound) (inside : outer < symbols.scopes.size) :
    (symbols.openScope outer).2.variables.firstFree (symbols.openScope outer).2.scopes
      symbols.scopes.size = symbols.variables.firstFree symbols.scopes outer := by
  have rooted := ScopeChain.rooted_openScope sound.rooted inside
  have outward := ScopeChain.outward_openScope_of_lt sound.rooted inside inside
  refine (VariableTable.firstFree_enter rooted _ _).trans ?_
  rw [VariableTable.firstFree_eq rooted, sound.ahead _ (Nat.le_refl _),
    ScopeChain.outer?_openScope_size]
  exact VariableTable.firstFree_congr outward

theorem openScope_sound (sound : symbols.Sound) (inside : outer < symbols.scopes.size) :
    (symbols.openScope outer).2.Sound := by
  have rooted := ScopeChain.rooted_openScope sound.rooted inside
  have size := size_openScope symbols outer
  refine ⟨rooted, by omega, ?_, ?_, sound.numbered, sound.packed, sound.framed, sound.named, ?_⟩
  · intro scope some_ below
    refine VariableTable.isSome_lookup_enter rooted _ ?_
    by_cases last : scope = symbols.scopes.size
    · exact .inl last
    · exact .inr (sound.entered scope some_ (by omega))
  · intro scope beyond
    refine (VariableTable.lookup_enter _ _ _ _).trans ?_
    have outside : scope ∉ symbols.variables.unentered (symbols.scopes.openScope outer)
        symbols.scopes.size := by
      intro member
      have around := (List.takeWhile_sublist _).mem member
      have below := ScopeChain.le_of_mem_outward rooted around
      omega
    rw [if_neg outside]
    exact sound.ahead scope (by omega)
  · intro scope entry present found member
    have present' : (symbols.scopes.openScope outer).scope? scope = some entry := present
    rw [ScopeChain.scope?_openScope] at present'
    split at present'
    · cases present'
      cases member
    · exact sound.declared scope entry present' found member

theorem openScope_extends (sound : symbols.Sound) (inside : outer < symbols.scopes.size)
    (scope : ScopeId) : Extends scope symbols (symbols.openScope outer).2 where
  sizes := by
    have size := size_openScope symbols outer
    omega
  scopes := by
    intro other entry present
    have below := ScopeChain.lt_size_of_scope? present
    refine ⟨[], ?_, fun _ => rfl, by simp⟩
    refine (ScopeChain.scope?_openScope_of_lt outer below).trans ?_
    simpa using present
  count := Nat.le_refl _
  kept := fun _ _ present => present
  starts := fun _ _ below => openScope_firstFree sound inside below
  frame := fun _ => Nat.le_refl _

theorem openScope_opened (sound : symbols.Sound) (inside : outer < symbols.scopes.size) :
    Opened outer symbols (symbols.openScope outer).1 (symbols.openScope outer).2 := by
  have size := size_openScope symbols outer
  have within : symbols.scopes.size < (symbols.openScope outer).2.scopes.size := by omega
  have visible := ScopeChain.visible_openScope_size sound.rooted inside
  refine ⟨openScope_sound sound inside, Nat.le_refl _, within, openScope_extends sound inside, rfl,
    visible, ScopeChain.resolve?_openScope_size sound.rooted inside,
    ScopeChain.declaredHere?_openScope_size symbols.scopes outer, fun open_ => ⟨within, ?_, ?_⟩⟩
  · intro var seen info present
    have room := open_.room var (visible ▸ seen) info present
    exact Nat.lt_of_lt_of_eq room
      (congrArg (·.on info.slot.stack) (openScope_firstFree_new sound inside).symm)
  · intro var seen other seen'
    exact open_.apart var (visible ▸ seen) other (visible ▸ seen')

end OpenScope

theorem initial_sound : Sound {} where
  rooted := ScopeChain.rooted_initial
  inhabited := Nat.one_pos
  entered := fun scope some_ inside => absurd (Nat.lt_one_iff.mp inside) some_
  ahead := fun _ _ => rfl
  numbered := by simp [VariableTable.get?]
  packed := by simp [VariableTable.get?]
  framed := by simp [VariableTable.get?]
  named := by simp [VariableTable.get?]
  declared := by
    intro scope entry present found member
    obtain ⟨_, rfl⟩ := ScopeChain.eq_root_of_scope?_initial present
    cases member

theorem initial_open : Open ScopeChain.root {} := by
  have nothing : ({} : Symbols).scopes.visible ScopeChain.root = [] := rfl
  refine ⟨Nat.one_pos, ?_, ?_⟩
  · simp [nothing]
  · simp [nothing]

end Resumable.Symbols
