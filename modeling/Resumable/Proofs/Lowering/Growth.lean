import Resumable.Proofs.Lowering.Names

/-! How the symbols grow under one statement: by the name it exposes to what follows, if by any, and
by scopes of its own. -/

namespace Resumable.Symbols

variable {scope fresh child outer : Nat} {before middle after symbols : Symbols}

theorem Extends.widen (extends_ : Extends fresh before after) (new : before.scopes.size ≤ fresh)
    (scope : Nat) : Extends scope before after :=
  (Extends.refl scope before).in_child extends_ new

theorem Extends.get?_eq (extends_ : Extends scope before after) {var : Nat}
    (known : var < before.variables.size) :
    after.variables.get? var = before.variables.get? var := by
  have present : before.variables.get? var = some before.variables.vars[var] :=
    Array.getElem?_eq_getElem known
  rw [extends_.kept var _ present, present]

theorem resolve?_congr (extends_ : Extends scope before after) (sound : before.Sound)
    {inner inner' : ScopeId} {name name' : String}
    (same : after.scopes.resolve? inner' name' = before.scopes.resolve? inner name) :
    after.resolve? inner' name' = before.resolve? inner name := by
  rw [resolve?, resolve?, same]
  cases found : before.scopes.resolve? inner name with
  | none => rfl
  | some var => exact extends_.get?_eq (lt_of_mem_visible sound (mem_visible_of_resolve? found))

theorem Extends.same_resolve? (extends_ : Extends fresh before after) (sound : before.Sound)
    (sound' : after.Sound) (new : before.scopes.size ≤ fresh) (inside : scope < before.scopes.size)
    (name : String) : after.resolve? scope name = before.resolve? scope name :=
  resolve?_congr extends_ sound
    (extends_.resolve?_eq sound sound' inside (Nat.lt_of_lt_of_le inside new) name)

theorem Open.around (open_ : Open scope before) (extends_ : Extends fresh before after)
    (sound : before.Sound) (sound' : after.Sound) (new : before.scopes.size ≤ fresh) :
    Open scope after := by
  have below := Nat.lt_of_lt_of_le open_.inside new
  have visible := extends_.visible_eq sound sound' open_.inside below
  have start := extends_.starts scope (Nat.ne_of_lt below) open_.inside
  refine ⟨Nat.lt_of_lt_of_le open_.inside extends_.sizes, ?_, ?_⟩
  · intro var seen info present
    rw [visible] at seen
    rw [extends_.get?_eq (lt_of_mem_visible sound seen)] at present
    rw [start]
    exact open_.room var seen info present
  · intro var seen other seen' info info' present present'
    rw [visible] at seen seen'
    rw [extends_.get?_eq (lt_of_mem_visible sound seen)] at present
    rw [extends_.get?_eq (lt_of_mem_visible sound seen')] at present'
    exact open_.apart var seen other seen' info info' present present'

theorem isTaken_iff_named {localName : String} :
    symbols.variables.isTaken localName = true ↔ ∃ var, Named symbols var localName := by
  rw [VariableTable.isTaken_iff, List.mem_map]
  constructor
  · rintro ⟨info, member, same⟩
    obtain ⟨var, inside, there⟩ := List.getElem_of_mem member
    refine ⟨var, info, ?_, same⟩
    rw [VariableTable.get?, ← Array.getElem?_toList, List.getElem?_eq_getElem inside, there]
  · rintro ⟨var, info, present, same⟩
    exact ⟨info, Array.mem_toList_iff.mpr (Array.mem_of_getElem? present), same⟩

theorem Named.lt {var : Nat} {name : String} (named : Named symbols var name) :
    var < symbols.variables.size := by
  obtain ⟨info, present, _⟩ := named
  obtain ⟨inside, _⟩ := Array.getElem?_eq_some_iff.mp present
  exact inside

theorem Extends.isTaken (extends_ : Extends scope before after) {localName : String}
    (taken : before.variables.isTaken localName = true) :
    after.variables.isTaken localName = true := by
  obtain ⟨var, named⟩ := isTaken_iff_named.mp taken
  exact isTaken_iff_named.mpr ⟨var, named.extend extends_⟩

theorem Extends.declaredHere?_none (extends_ : Extends scope before after)
    (inside : outer < before.scopes.size) {name : String}
    (missing : after.scopes.declaredHere? outer name = none) :
    before.scopes.declaredHere? outer name = none := by
  obtain ⟨entry, present⟩ := ScopeChain.scope?_isSome inside
  obtain ⟨more, later, _⟩ := extends_.scopes outer entry present
  rw [ScopeChain.declaredHere?, later, Option.bind_some, List.lookup_append,
    Option.or_eq_none_iff] at missing
  rw [ScopeChain.declaredHere?, present]
  exact missing.1

/-- A scope of the symbols beside namings of evaluation, as far as the listed names go. -/
structure Agrees (symbols : Symbols) (scope : ScopeId) (outer : List Naming) (inner : Naming)
    (names : List String) : Prop where
  finds : Finds symbols scope (inner :: outer) names
  here : ∀ name, symbols.scopes.declaredHere? scope name = none → inner.lookup name = none
  taken : ∀ localName ∈ Naming.locals (inner :: outer),
    symbols.variables.isTaken localName = true

namespace Agrees

variable {namings : List Naming} {inner : Naming} {names few : List String}

theorem mono (agrees : Agrees symbols scope namings inner names) (subset : few ⊆ names) :
    Agrees symbols scope namings inner few :=
  { agrees with finds := agrees.finds.mono subset }

/-- A block that opens no scope is a scope for evaluation all the same. -/
theorem push (agrees : Agrees symbols scope namings inner names) :
    Agrees symbols scope (inner :: namings) [] names where
  finds := agrees.finds
  here := fun _ _ => rfl
  taken := agrees.taken

theorem enter (agrees : Agrees before scope namings inner names) (sound : before.Sound)
    (opened : Opened scope before child after) : Agrees after child (inner :: namings) [] names where
  finds := by
    intro name present info found
    rw [resolve?_congr (opened.extends_ scope) sound (opened.resolve? name)] at found
    exact agrees.finds name present info found
  here := fun _ _ => rfl
  taken := fun localName present => (opened.extends_ scope).isTaken (agrees.taken localName present)

theorem around (agrees : Agrees before scope namings inner names)
    (extends_ : Extends fresh before after) (sound : before.Sound) (sound' : after.Sound)
    (new : before.scopes.size ≤ fresh) (inside : scope < before.scopes.size) :
    Agrees after scope namings inner names where
  finds := by
    intro name present info found
    rw [extends_.same_resolve? sound sound' new inside] at found
    exact agrees.finds name present info found
  here := fun name missing => agrees.here name (extends_.declaredHere?_none inside missing)
  taken := fun localName present => extends_.isTaken (agrees.taken localName present)

theorem resolve?_declared {name other : String} {type : DataType} {mutable : Bool} {info : Variable}
    (declared : Declared scope name type mutable before info after) (sound : before.Sound)
    (apart : other ≠ name) : after.resolve? scope other = before.resolve? scope other := by
  refine resolve?_congr declared.extends_ sound ?_
  rw [declared.resolve?, if_neg apart]

theorem declare {name : String} {type : DataType} {mutable : Bool} {info : Variable}
    (agrees : Agrees before scope namings inner names) (sound : before.Sound)
    (declared : Declared scope name type mutable before info after)
    (subset : ∀ other ∈ few, other ≠ name → other ∈ names) :
    Agrees after scope namings (inner ++ [(name, info.localName)]) few where
  finds := by
    intro other present found resolved
    have new := agrees.here name declared.new
    by_cases same : other = name
    · have meant : after.resolve? scope other = some info := by
        rw [Symbols.resolve?, declared.resolve?, if_pos same, Option.bind_some, declared.found]
      rw [resolved] at meant
      rw [Option.some.inj meant, same, Naming.find?, List.lookup_append, new]
      simp
    · rw [resolve?_declared declared sound same] at resolved
      have old := agrees.finds other (subset other present same) found resolved
      have elsewhere : (other == name) = false := by simpa using same
      rw [Naming.find?, List.lookup_append]
      simpa [List.lookup_cons, elsewhere, Naming.find?] using old
  here := by
    intro other missing
    rw [declared.declaredHere?] at missing
    split at missing
    · cases missing
    · rename_i apart
      have elsewhere : (other == name) = false := by simpa using apart
      simp [List.lookup_append, agrees.here other missing, List.lookup_cons, elsewhere]
  taken := by
    intro localName present
    rw [Naming.locals_cons, List.map_append, List.mem_append, List.mem_append] at present
    rcases present with (old | new) | old
    · exact declared.extends_.isTaken (agrees.taken localName (List.mem_append_left _ old))
    · have same : localName = info.localName := by simpa using new
      rw [same]
      exact isTaken_iff_named.mpr ⟨info.id, info, declared.found, rfl⟩
    · exact declared.extends_.isTaken (agrees.taken localName (List.mem_append_right _ old))

/-- A declaration in a block that opens no scope is left with the block. Only what refers to its
name takes notice. -/
theorem leak {name : String} {type : DataType} {mutable : Bool} {info : Variable}
    (agrees : Agrees before scope namings inner names) (sound : before.Sound)
    (inside : scope < before.scopes.size)
    (declared : Declared scope name type mutable before info after) (unused : name ∉ names) :
    Agrees after scope namings inner names where
  finds := by
    intro other present found resolved
    have apart : other ≠ name := fun same => unused (same ▸ present)
    rw [resolve?_declared declared sound apart] at resolved
    exact agrees.finds other present found resolved
  here := fun other missing => agrees.here other (declared.extends_.declaredHere?_none inside missing)
  taken := fun localName present => declared.extends_.isTaken (agrees.taken localName present)

theorem exists_namings (sound : symbols.Sound) (scope : ScopeId) (names : List String) :
    ∃ namings, Agrees symbols scope namings [] names := by
  let naming : Naming := names.filterMap fun name =>
    (symbols.resolve? scope name).map fun info => (name, info.localName)
  refine ⟨[naming], ?_, fun _ _ => rfl, ?_⟩
  · intro name present info found
    have listed : naming.lookup name = some info.localName := by
      have keyed : ∀ entry ∈ naming, entry.1 = name → entry.2 = info.localName := by
        intro entry member same
        obtain ⟨other, _, made⟩ := List.mem_filterMap.mp member
        obtain ⟨info', found', rfl⟩ := Option.map_eq_some_iff.mp made
        have equal : other = name := same
        rw [equal, found] at found'
        exact congrArg Variable.localName (Option.some.inj found').symm
      have member : (name, info.localName) ∈ naming :=
        List.mem_filterMap.mpr ⟨name, present, by rw [found]; rfl⟩
      cases looked : naming.lookup name with
      | none =>
          rw [List.lookup_eq_none_iff] at looked
          simpa using looked _ member
      | some localName =>
          obtain ⟨front, behind, split, _⟩ := List.lookup_eq_some_iff.mp looked
          have inside : (name, localName) ∈ naming := by rw [split]; simp
          exact congrArg some (keyed _ inside rfl)
    simp [Naming.find?, listed]
  · intro localName present
    have inside : localName ∈ naming.map Prod.snd := by simpa using present
    obtain ⟨entry, member, rfl⟩ := List.mem_map.mp inside
    obtain ⟨other, _, made⟩ := List.mem_filterMap.mp member
    obtain ⟨info, found, rfl⟩ := Option.map_eq_some_iff.mp made
    obtain ⟨_, there⟩ := resolve?_eq_some sound found
    exact isTaken_iff_named.mpr ⟨info.id, info, there, rfl⟩

end Agrees

/-- The growth of symbols under a statement that exposes a name, or none. -/
def Grown (scope : ScopeId) (before after : Symbols) : Option String → Option String → Prop
  | some name, some localName => ∃ type mutable info, info.localName = localName ∧
    Declared scope name type mutable before info after
  | none, none => after.Sound ∧ Extends before.scopes.size before after
  | _, _ => False

namespace Grown

variable {name? localName? : Option String}

theorem cases (grown : Grown scope before after name? localName?) :
    (name? = none ∧ localName? = none ∧ after.Sound ∧
      Extends before.scopes.size before after) ∨
    ∃ name type mutable info, name? = some name ∧ localName? = some info.localName ∧
      Declared scope name type mutable before info after := by
  cases name? <;> cases localName?
  · exact .inl ⟨rfl, rfl, grown⟩
  · exact grown.elim
  · exact grown.elim
  · obtain ⟨type, mutable, info, rfl, declared⟩ := grown
    exact .inr ⟨_, type, mutable, info, rfl, rfl, declared⟩

theorem sound (grown : Grown scope before after name? localName?) : after.Sound := by
  rcases grown.cases with ⟨_, _, sound, _⟩ | ⟨_, _, _, _, _, _, declared⟩
  · exact sound
  · exact declared.sound

theorem extends_ (grown : Grown scope before after name? localName?) :
    Extends scope before after := by
  rcases grown.cases with ⟨_, _, _, inner⟩ | ⟨_, _, _, _, _, _, declared⟩
  · exact inner.widen (Nat.le_refl _) scope
  · exact declared.extends_

theorem open_ (grown : Grown scope before after name? localName?) (sound : before.Sound)
    (open_ : Open scope before) : Open scope after := by
  rcases grown.cases with ⟨_, _, sound', inner⟩ | ⟨_, _, _, _, _, _, declared⟩
  · exact open_.around inner sound sound' (Nat.le_refl _)
  · exact declared.open_ open_

theorem makes {localName : String} (grown : Grown scope before after name? (some localName)) :
    ∃ var : Nat, before.variables.size ≤ var ∧ Named after var localName := by
  rcases grown.cases with ⟨_, impossible, _⟩ | ⟨_, _, _, info, _, same, declared⟩
  · cases impossible
  · exact ⟨info.id, Nat.le_of_eq declared.id.symm, info, declared.found,
      (Option.some.inj same).symm⟩

theorem visible {declares : Option VarId} (grown : Grown scope before after name? localName?)
    (sound : before.Sound) (inside : scope < before.scopes.size)
    (declared : ∀ name, localName? = some name → ∃ var, declares = some var ∧ Named after var name) :
    ∀ var ∈ after.scopes.visible scope,
      var ∈ declares.toList ++ before.scopes.visible scope := by
  intro var here
  rcases grown.cases with ⟨_, _, sound', inner⟩ | ⟨_, _, _, info, _, exposed, declaration⟩
  · rw [inner.visible_eq sound sound' inside inside] at here
    exact List.mem_append_right _ here
  · obtain ⟨made, rfl, named⟩ := declared info.localName exposed
    have equal := named.unique declaration.sound ⟨info, declaration.found, rfl⟩
    rcases (declaration.visible var).mp here with new | old
    · simp [equal, new]
    · exact List.mem_append_right _ old

end Grown
end Resumable.Symbols
