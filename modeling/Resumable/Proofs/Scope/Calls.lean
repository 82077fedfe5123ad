import Mathlib
import Resumable.Proofs.Scope.Declaration

/-! Scopes and variables after calls in any order, on scopes that exist or not, under any names. -/

namespace Resumable

namespace VariableTable

variable {table : VariableTable} {chain : ScopeChain} {name : String}

section Search

/-- The search for a local name. A form that is taken gives way to the next numbered one. A search
starts at the name itself, and with the number where the last search for that name ended. -/
inductive Seeks (table : VariableTable) (name : String) : Nat → String → Nat → String → Prop
  | free {number : Nat} {form : String} :
      table.isTaken form = false → Seeks table name number form number form
  | taken {number last : Nat} {form found : String} : table.isTaken form = true →
      Seeks table name (number + 1) (candidate name (number + 1)) last found →
      Seeks table name number form last found

theorem Seeks.ends (table : VariableTable) (name : String) (number : Nat) (form : String) :
    ∃ last found, Seeks table name number form last found := by
  obtain ⟨goal, ahead, _, free⟩ := table.exists_free name (number + 1)
  obtain ⟨steps, rfl⟩ := Nat.exists_eq_add_of_le ahead
  clear ahead
  induction steps generalizing number form with
  | zero =>
      cases here : table.isTaken form with
      | false => exact ⟨_, _, .free here⟩
      | true => exact ⟨_, _, .taken here (.free free)⟩
  | succ steps ih =>
      cases here : table.isTaken form with
      | false => exact ⟨_, _, .free here⟩
      | true =>
          have shifted : number + 1 + (steps + 1) = number + 1 + 1 + steps := by omega
          obtain ⟨last, found, further⟩ := ih (number + 1) (candidate name (number + 1))
            (by omega) (shifted ▸ free)
          exact ⟨last, found, .taken here further⟩

/-- A search ends at a form that is free. Either that is the form it started with, or it is the
first free one among the numbered forms that follow. -/
theorem Seeks.result {number last : Nat} {form found : String}
    (seeks : Seeks table name number form last found) : table.isTaken found = false ∧
      ((found = form ∧ last = number) ∨ (table.isTaken form = true ∧ number < last ∧
        found = candidate name last ∧
        ∀ other, number < other → other < last → table.isTaken (candidate name other) = true)) := by
  induction seeks with
  | free free => exact ⟨free, .inl ⟨rfl, rfl⟩⟩
  | taken taken _ ih =>
      obtain ⟨free, ⟨same, rfl⟩ | ⟨next, later, same, between⟩⟩ := ih
      · exact ⟨free, .inr ⟨taken, Nat.lt_succ_self _, same, fun other above below => by omega⟩⟩
      · refine ⟨free, .inr ⟨taken, by omega, same, fun other above below => ?_⟩⟩
        rcases Nat.eq_or_lt_of_le above with first | further
        · exact first ▸ next
        · exact between other further below

/-- Where searches for a name have come to: all its forms up to that number are taken, unless there
was no search yet that went beyond the name itself. -/
def Counted (table : VariableTable) (name : String) (number : Nat) : Prop :=
  number ≠ 0 → ∀ other ≤ number, table.isTaken (candidate name other) = true

theorem Seeks.first {number last : Nat} {found : String} (counted : table.Counted name number)
    (seeks : table.Seeks name number name last found) : found = candidate name last ∧
      table.isTaken (candidate name last) = false ∧
      ∀ other < last, table.isTaken (candidate name other) = true := by
  obtain ⟨free, ⟨rfl, rfl⟩ | ⟨taken, _, rfl, between⟩⟩ := seeks.result
  · have start : last = 0 := by
      by_contra some_
      have used : table.isTaken found = true := counted some_ 0 (Nat.zero_le _)
      rw [free] at used
      cases used
    subst start
    exact ⟨rfl, free, fun other below => absurd below (Nat.not_lt_zero other)⟩
  · refine ⟨rfl, free, fun other below => ?_⟩
    by_cases above : number < other
    · exact between other above below
    · by_cases zero : other = 0
      · exact zero ▸ taken
      · exact counted (by omega) other (by omega)

theorem Seeks.eq_freshName {number last : Nat} {found : String}
    (counted : table.Counted name number) (seeks : table.Seeks name number name last found) :
    found = table.freshName name := by
  obtain ⟨rfl, free, before⟩ := seeks.first counted
  obtain ⟨first, same, free', before'⟩ := table.freshName_first name
  rw [same]
  rcases Nat.lt_trichotomy last first with less | rfl | more
  · rw [before' last less] at free
    cases free
  · rfl
  · rw [before first more] at free'
    cases free'

end Search

/-- What holds of the variables and their slots, however they came about. -/
structure Regular (table : VariableTable) : Prop where
  numbered : ∀ {var : Nat} {info}, table.get? var = some info → info.id = var
  named : (table.vars.toList.map Variable.localName).Nodup
  packed : ∀ {var : Nat} {info}, table.get? var = some info →
    info.encoding = info.type.encoding ∧ info.slot.stack = info.encoding.stack
  apart : ∀ {var other : Nat} {info info'}, table.get? var = some info →
    table.get? other = some info' → info.scope = info'.scope → info.slot = info'.slot → var = other
  below : ∀ {var : Nat} {info}, table.get? var = some info →
    ∃ extent, table.next.lookup info.scope = some extent ∧
      info.slot.index < extent.on info.slot.stack
  within : ∀ {scope extent}, table.next.lookup scope = some extent →
    ∀ stack, extent.on stack ≤ table.frame.on stack
  tight : ∀ stack, table.frame.on stack = 0 ∨ ∃ (var : Nat) (info : Variable),
    table.get? var = some info ∧ info.slot.stack = stack ∧
      table.frame.on stack = info.slot.index + 1

theorem firstFree_of_lookup {scope : ScopeId} {extent : Extent}
    (entry : table.next.lookup scope = some extent) : table.firstFree chain scope = extent := by
  rw [firstFree, ScopeChain.outward, ScopeChain.walk, List.findSome?_cons, entry]
  rfl

theorem lookup_eq_none_of_mem_unentered {scope inner : ScopeId}
    (member : scope ∈ table.unentered chain inner) : table.next.lookup scope = none := by
  simpa using List.mem_takeWhile_imp member

theorem lookup_enter_of_some (scope : ScopeId) {other : ScopeId} {extent : Extent}
    (entry : table.next.lookup other = some extent) :
    (table.enter chain scope).next.lookup other = some extent := by
  rw [lookup_enter, if_neg, entry]
  intro member
  rw [lookup_eq_none_of_mem_unentered member] at entry
  cases entry

namespace Regular

theorem initial : Regular {} where
  numbered := by simp [get?]
  named := List.nodup_nil
  packed := by simp [get?]
  apart := by simp [get?]
  below := by simp [get?]
  within := by simp
  tight := by
    intro stack
    cases stack <;> exact .inl rfl

theorem firstFree_le (regular : table.Regular) (chain : ScopeChain) (scope : ScopeId)
    (stack : Stack) : (table.firstFree chain scope).on stack ≤ table.frame.on stack := by
  rw [firstFree]
  cases found : (chain.outward scope).findSome? fun outer => table.next.lookup outer with
  | none => cases stack <;> exact Nat.zero_le _
  | some extent =>
      obtain ⟨outer, _, entry⟩ := List.exists_of_findSome?_eq_some found
      exact regular.within entry stack

theorem enter (regular : table.Regular) (chain : ScopeChain) (scope : ScopeId) :
    (table.enter chain scope).Regular where
  numbered := regular.numbered
  named := regular.named
  packed := regular.packed
  apart := regular.apart
  tight := regular.tight
  below := by
    intro var info present
    obtain ⟨extent, entry, less⟩ := regular.below present
    exact ⟨extent, lookup_enter_of_some scope entry, less⟩
  within := by
    intro other extent entry stack
    rw [lookup_enter] at entry
    split at entry
    · cases entry
      exact regular.firstFree_le chain scope stack
    · exact regular.within entry stack

theorem framed (regular : table.Regular) {var : Nat} {info : Variable}
    (present : table.get? var = some info) : info.slot.index < table.frame.on info.slot.stack := by
  obtain ⟨extent, entry, less⟩ := regular.below present
  exact Nat.lt_of_lt_of_le less (regular.within entry _)

end Regular

def indicesOn (table : VariableTable) (stack : Stack) : List Nat :=
  (table.vars.toList.filter (·.slot.stack = stack)).map (·.slot.index)

theorem mem_indicesOn {stack : Stack} {index : Nat} : index ∈ table.indicesOn stack ↔
    ∃ (var : Nat) (info : Variable), table.get? var = some info ∧ info.slot.stack = stack ∧
      info.slot.index = index := by
  simp only [indicesOn, List.mem_map, List.mem_filter, Array.mem_toList_iff, decide_eq_true_eq,
    Array.mem_iff_getElem?, get?]
  constructor
  · rintro ⟨info, ⟨⟨var, present⟩, on⟩, same⟩
    exact ⟨var, info, present, on, same⟩
  · rintro ⟨var, info, present, on, same⟩
    exact ⟨info, ⟨⟨var, present⟩, on⟩, same⟩

/-- The frame is empty where no variable has a slot, and otherwise ends behind the last index. -/
theorem Regular.frame_on (regular : table.Regular) (stack : Stack) :
    table.frame.on stack = (table.indicesOn stack).max?.elim 0 (· + 1) := by
  cases greatest : (table.indicesOn stack).max? with
  | none =>
      have nothing := List.max?_eq_none_iff.mp greatest
      rcases regular.tight stack with empty | ⟨var, info, present, on, _⟩
      · exact empty
      · have member := mem_indicesOn.mpr ⟨var, info, present, on, rfl⟩
        rw [nothing] at member
        cases member
  | some index =>
      obtain ⟨member, greater⟩ := List.max?_eq_some_iff.mp greatest
      obtain ⟨var, info, present, rfl, same⟩ := mem_indicesOn.mp member
      have inside := regular.framed present
      rcases regular.tight info.slot.stack with empty | ⟨other, last, present', on, ends⟩
      · omega
      · have less := greater _ (mem_indicesOn.mpr ⟨other, last, present', on, rfl⟩)
        simp only [Option.elim_some]
        omega

end VariableTable

namespace Symbols

variable {symbols after : Symbols} {scope : Nat} {stack : Stack} {name : String} {type : DataType}
  {mutable parameter : Bool} {location : Location} {info : Variable} {table : VariableTable}
  {failure : Failure} {numbers : String → Nat}

namespace Registered

theorem lookup_grows (registered : Registered scope stack symbols info table) {other : ScopeId}
    {extent : Extent} (entry : symbols.variables.next.lookup other = some extent) :
    ∃ extent', table.next.lookup other = some extent' ∧
      ∀ stack, extent.on stack ≤ extent'.on stack := by
  rw [registered.next, VariableTable.lookup_allocate]
  by_cases same : other = scope
  · rw [same] at entry ⊢
    refine ⟨_, if_pos rfl, fun stack => ?_⟩
    rw [VariableTable.firstFree_of_lookup entry, Extent.on_grow]
    split <;> omega
  · exact ⟨extent, by rw [if_neg same, VariableTable.lookup_enter_of_some scope entry],
      fun _ => Nat.le_refl _⟩

theorem lookup_here (registered : Registered scope stack symbols info table) :
    table.next.lookup info.scope =
      some ((symbols.variables.firstFree symbols.scopes scope).grow stack) := by
  rw [registered.next, VariableTable.lookup_allocate, registered.inside, if_pos rfl]

theorem slot_ne (registered : Registered scope stack symbols info table)
    (regular : symbols.variables.Regular) {old : Variable} {other : Nat}
    (present : symbols.variables.get? other = some old) (same : old.scope = info.scope) :
    old.slot ≠ info.slot := by
  intro equal
  obtain ⟨extent, entry, less⟩ := regular.below present
  rw [same, registered.inside] at entry
  rw [equal, registered.slot, VariableTable.firstFree_of_lookup entry] at less
  exact Nat.lt_irrefl _ less

theorem isTaken_iff (registered : Registered scope stack symbols info table) {form : String} :
    table.isTaken form = true ↔
      symbols.variables.isTaken form = true ∨ form = info.localName := by
  rw [VariableTable.isTaken_iff, VariableTable.isTaken_iff, registered.vars, Array.toList_push,
    List.map_append, List.map_singleton, List.mem_append, List.mem_singleton]

theorem frame_eq (registered : Registered scope stack symbols info table)
    (regular : symbols.variables.Regular) (other : Stack) :
    table.frame.on other = symbols.variables.frame.on other ∨
      (info.slot.stack = other ∧ table.frame.on other = info.slot.index + 1) := by
  have least := regular.firstFree_le symbols.scopes scope other
  rw [registered.frame, Extent.on_join, Extent.on_grow, registered.slot]
  by_cases same : other = stack
  · subst same
    rw [if_pos rfl]
    rcases Nat.le_total ((symbols.variables.firstFree symbols.scopes scope).on other + 1)
      (symbols.variables.frame.on other) with small | large
    · exact .inl (Nat.max_eq_left small)
    · exact .inr ⟨rfl, Nat.max_eq_right large⟩
  · rw [if_neg same]
    exact .inl (Nat.max_eq_left least)

theorem regular (registered : Registered scope stack symbols info table)
    (regular : symbols.variables.Regular) : table.Regular where
  numbered := by
    intro var found present
    rcases registered.cases_get? present with ⟨same, rfl⟩ | ⟨_, old⟩
    · exact registered.id.trans same.symm
    · exact regular.numbered old
  named := by
    rw [registered.vars, Array.toList_push, List.map_append, List.map_singleton,
      ← List.concat_eq_append]
    refine regular.named.concat fun taken => ?_
    rw [← VariableTable.isTaken_iff, registered.fresh] at taken
    cases taken
  packed := by
    intro var found present
    rcases registered.cases_get? present with ⟨_, rfl⟩ | ⟨_, old⟩
    · exact ⟨registered.packed, by rw [registered.slot, registered.held]⟩
    · exact regular.packed old
  apart := by
    intro var other found found' present present' scopes slots
    rcases registered.cases_get? present with ⟨here, rfl⟩ | ⟨_, old⟩
    · rcases registered.cases_get? present' with ⟨here', _⟩ | ⟨_, old'⟩
      · exact here.trans here'.symm
      · exact absurd slots.symm (registered.slot_ne regular old' scopes.symm)
    · rcases registered.cases_get? present' with ⟨_, rfl⟩ | ⟨_, old'⟩
      · exact absurd slots (registered.slot_ne regular old scopes)
      · exact regular.apart old old' scopes slots
  below := by
    intro var found present
    rcases registered.cases_get? present with ⟨_, rfl⟩ | ⟨_, old⟩
    · exact ⟨_, registered.lookup_here, registered.slot_lt⟩
    · obtain ⟨extent, entry, less⟩ := regular.below old
      obtain ⟨extent', entry', more⟩ := registered.lookup_grows entry
      exact ⟨extent', entry', Nat.lt_of_lt_of_le less (more _)⟩
  within := by
    intro other extent entry stack
    rw [registered.frame, Extent.on_join]
    rw [registered.next, VariableTable.lookup_allocate] at entry
    split at entry
    · cases entry
      exact Nat.le_max_right _ _
    · exact Nat.le_trans ((regular.enter symbols.scopes scope).within entry stack)
        (Nat.le_max_left _ _)
  tight := by
    intro other
    rcases registered.frame_eq regular other with same | ⟨here, last⟩
    · rw [same]
      refine (regular.tight other).imp_right ?_
      rintro ⟨var, old, present, found⟩
      exact ⟨var, old, registered.get?_old present, found⟩
    · exact .inr ⟨info.id, info, registered.get?_new, here, last⟩

end Registered

/-- What calls in any order can lead to, and the numbers where the searches for local names have
come to. A scope is opened inside one there is. A declaration may be made where `declarable` says so,
and may fail. -/
inductive Reached (declarable : Symbols → ScopeId → Prop) : Symbols → (String → Nat) → Prop
  | initial : Reached declarable {} fun _ => 0
  | opens {symbols : Symbols} {numbers : String → Nat} (outer : Nat) :
      Reached declarable symbols numbers → outer < symbols.scopes.size →
      Reached declarable ⟨symbols.scopes.openScope outer, symbols.variables⟩ numbers
  | enters {symbols : Symbols} {numbers : String → Nat} (scope : ScopeId) :
      Reached declarable symbols numbers →
      Reached declarable ⟨symbols.scopes, symbols.variables.enter symbols.scopes scope⟩ numbers
  | refuses {symbols : Symbols} {numbers : String → Nat} {var : VarId} (scope : ScopeId)
      (name : String) (type : DataType) (mutable parameter : Bool) (location : Location) :
      Reached declarable symbols numbers → declarable symbols scope →
      symbols.scopes.declaredHere? scope name = some var →
      Reached declarable (symbols.declare scope name type mutable parameter location).2 numbers
  | declares {symbols : Symbols} {numbers : String → Nat} {last : Nat} {localName : String}
      (scope : ScopeId) (name : String) (type : DataType) (mutable parameter : Bool)
      (location : Location) :
      Reached declarable symbols numbers → declarable symbols scope →
      symbols.scopes.declaredHere? scope name = none →
      symbols.variables.Seeks name (numbers name) name last localName →
      Reached declarable (symbols.declare scope name type mutable parameter location).2
        (Function.update numbers name last)

theorem declare_of_here {var : VarId} (here : symbols.scopes.declaredHere? scope name = some var) :
    (symbols.declare scope name type mutable parameter location).2 = symbols := by
  rcases symbols.declare_cases scope name type mutable parameter location with
    ⟨_, _, _, same⟩ | ⟨new, _⟩ | ⟨new, _⟩
  · rw [same]
  · cases here.symm.trans new
  · cases here.symm.trans new

theorem declare_registers (new : symbols.scopes.declaredHere? scope name = none) :
    Registered scope type.encoding.stack symbols
      (symbols.register scope name type mutable parameter location).1
      (symbols.declare scope name type mutable parameter location).2.variables := by
  have registered := register_registered symbols scope name type mutable parameter location
  rcases symbols.declare_cases scope name type mutable parameter location with
    ⟨_, _, here, _⟩ | ⟨_, _, _, same⟩ | ⟨_, _, same⟩
  · cases here.symm.trans new
  · rw [same]
    exact registered
  · rw [same]
    exact registered

namespace Reached

variable {declarable : Symbols → ScopeId → Prop}

/-- Every declaration that may be made leads on: the search for a local name ends. -/
theorem declare (reached : Reached declarable symbols numbers) (may : declarable symbols scope) :
    ∃ numbers', Reached declarable
      (symbols.declare scope name type mutable parameter location).2 numbers' := by
  cases here : symbols.scopes.declaredHere? scope name with
  | some var => exact ⟨numbers, reached.refuses scope name type mutable parameter location may here⟩
  | none =>
      obtain ⟨last, localName, seeks⟩ :=
        VariableTable.Seeks.ends symbols.variables name (numbers name) name
      exact ⟨_, reached.declares scope name type mutable parameter location may here seeks⟩

theorem regular (reached : Reached declarable symbols numbers) : symbols.variables.Regular := by
  induction reached with
  | initial => exact .initial
  | opens outer _ _ ih => exact ih
  | enters scope _ ih => exact ih.enter _ _
  | refuses scope name type mutable parameter location _ _ here ih =>
      rw [declare_of_here here]
      exact ih
  | declares scope name type mutable parameter location _ _ new _ ih =>
      exact (declare_registers new).regular ih

theorem counted (reached : Reached declarable symbols numbers) :
    ∀ name, symbols.variables.Counted name (numbers name) := by
  induction reached with
  | initial => exact fun _ some_ => absurd rfl some_
  | opens outer _ _ ih => exact ih
  | enters scope _ ih => exact ih
  | refuses scope name type mutable parameter location _ _ here ih =>
      rw [declare_of_here here]
      exact ih
  | @declares _ _ last localName scope name type mutable parameter location _ _ new seeks ih =>
      intro other some_ number least
      rw [(declare_registers new).isTaken_iff]
      by_cases same : other = name
      · subst same
        rw [Function.update_self] at least
        obtain ⟨ends, _, before⟩ := seeks.first (ih other)
        rcases Nat.eq_or_lt_of_le least with rfl | less
        · exact .inr (ends.symm.trans (seeks.eq_freshName (ih other)))
        · exact .inl (before number less)
      · rw [Function.update_of_ne same] at some_ least
        exact .inl (ih other some_ number least)

theorem declared_lt (reached : Reached declarable symbols numbers) :
    ∀ (scope : Nat) (name : String) (var : Nat),
      symbols.scopes.declaredHere? scope name = some var → var < symbols.variables.size := by
  induction reached with
  | initial =>
      intro scope name var here
      obtain ⟨entry, present, found⟩ := Option.bind_eq_some_iff.mp here
      obtain ⟨_, rfl⟩ := ScopeChain.eq_root_of_scope?_initial present
      cases found
  | opens outer _ _ ih =>
      intro scope name var here
      rw [ScopeChain.declaredHere?, ScopeChain.scope?_openScope] at here
      split at here
      · cases here
      · exact ih scope name var here
  | enters scope _ ih => exact ih
  | refuses scope name type mutable parameter location _ _ here ih =>
      rw [declare_of_here here]
      exact ih
  | @declares symbols _ _ _ scope name type mutable parameter location _ _ new _ ih =>
      intro other text var here
      rw [(declare_registers new).count]
      rcases symbols.declare_cases scope name type mutable parameter location with
        ⟨_, _, there, _⟩ | ⟨_, chain, bound, same⟩ | ⟨_, _, same⟩
      · cases there.symm.trans new
      · rw [same] at here
        have bound := bound_of_bind? bound
        by_cases within : other = scope
        · subst within
          rw [bound.declaredHere?_eq new] at here
          split at here
          · cases here
            exact Nat.lt_succ_self _
          · exact Nat.lt_succ_of_lt (ih other text var here)
        · rw [ScopeChain.declaredHere?, bound.others other within] at here
          exact Nat.lt_succ_of_lt (ih other text var here)
      · rw [same] at here
        exact Nat.lt_succ_of_lt (ih other text var here)

theorem seeks (reached : Reached declarable symbols numbers) (name : String) :
    ∃ last, symbols.variables.Seeks name (numbers name) name last
      (symbols.variables.freshName name) := by
  obtain ⟨last, found, seeks⟩ :=
    VariableTable.Seeks.ends symbols.variables name (numbers name) name
  exact ⟨last, seeks.eq_freshName (reached.counted name) ▸ seeks⟩

/-- After calls in any order, failed ones included, variables are numbered in order and have local
names of their own, slots of the kind that their types ask for, and no slot in common with another
variable of the scope. The frame is as large as the slots ask for. The search for the local name of
the next variable ends, whatever names there are. -/
theorem table_regular (reached : Reached declarable symbols numbers) :
    (∀ (var : Nat) info, symbols.variables.get? var = some info → info.id = var) ∧
    (symbols.variables.vars.toList.map Variable.localName).Nodup ∧
    (∀ info ∈ symbols.variables.vars,
      info.slot.stack = info.encoding.stack ∧ info.encoding = info.type.encoding) ∧
    (∀ (var other : Nat) info info', symbols.variables.get? var = some info →
      symbols.variables.get? other = some info' → var ≠ other → info.scope = info'.scope →
      info.slot.stack = info'.slot.stack → info.slot.index ≠ info'.slot.index) ∧
    (∀ stack, symbols.variables.frame.on stack =
      (symbols.variables.indicesOn stack).max?.elim 0 (· + 1)) ∧
    ∀ name, ∃ last, symbols.variables.Seeks name (numbers name) name last
      (symbols.variables.freshName name) := by
  have regular := reached.regular
  refine ⟨fun _ _ => regular.numbered, regular.named, fun info member => ?_,
    fun var other info info' present present' distinct scopes kinds indices => ?_,
    regular.frame_on, reached.seeks⟩
  · obtain ⟨var, present⟩ := Array.mem_iff_getElem?.mp member
    exact (regular.packed present).symm
  · have slots : info.slot = info'.slot := by
      rw [Slot.mk.injEq]
      exact ⟨kinds, indices⟩
    exact distinct (regular.apart present present' scopes slots)

/-- A name is declared in two scopes, beside names that look like generated ones. The last two
declarations fail: their scope does not exist, or has the name. -/
theorem table_regular_crowd : ∃ symbols numbers, Reached (fun _ _ => True) symbols numbers ∧
    symbols.variables.vars.toList.map Variable.localName = ["x$1", "x", "x$2", "x$2$1"] ∧
    symbols.variables.frame = ⟨2, 1⟩ ∧ symbols.variables.freshName "x" = "x$3" ∧
    (symbols.variables.vars.toList.map Variable.localName).Nodup ∧
    ∃ last,
      symbols.variables.Seeks "x" (numbers "x") "x" last (symbols.variables.freshName "x") := by
  have start : Reached (fun _ _ => True) {} fun _ => 0 := .initial
  have first := start.declares 0 "x$1" .int false false {} trivial (by cbv) (.free (by cbv))
  have outside := first.declares 0 "x" .int false false {} trivial (by cbv) (.free (by cbv))
  have opened := outside.opens 0 (by decide)
  have inside := opened.declares 1 "x" .string false false {} trivial (by cbv)
    (.taken (by cbv) (.taken (by cbv) (.free (by cbv))))
  have lost := inside.declares 7 "x$2" .bool false false {} trivial (by cbv)
    (.taken (by cbv) (.free (by cbv)))
  have reached := @Reached.refuses _ _ _ 1 0 "x" .int false false {} lost trivial (by cbv)
  obtain ⟨_, distinct, _, _, _, seeks⟩ := reached.table_regular
  exact ⟨_, _, reached, by cbv, by cbv, by cbv, distinct, seeks "x"⟩

/-- A declaration that fails in a scope there is, since the scope has the name, changes nothing. In
a scope there is not it is refused too, and all scopes, bindings and variables stay. But the new
variable remains in the table, where no name stands for it. -/
theorem declare_failed (reached : Reached declarable symbols numbers)
    (failed : symbols.declare scope name type mutable parameter location =
      (.error failure, after)) :
    (scope < symbols.scopes.size →
      (∃ clash, failure = ⟨.lowering (.redeclared name clash), location⟩) ∧ after = symbols) ∧
    (symbols.scopes.size ≤ scope →
      failure = { fault := .graph (.noScope scope) } ∧ after.scopes = symbols.scopes ∧
      (∃ info : Variable, info.name = name ∧ info.scope = scope ∧
        after.variables.vars = symbols.variables.vars.push info) ∧
      (∀ other text, after.resolve? other text = symbols.resolve? other text) ∧
      after ≠ symbols) := by
  rcases symbols.declare_cases scope name type mutable parameter location with
    ⟨var, clash, here, same⟩ | ⟨_, _, _, same⟩ | ⟨_, missing, same⟩
  · cases failed.symm.trans same
    obtain ⟨entry, present, _⟩ := Option.bind_eq_some_iff.mp here
    have exists_ := ScopeChain.lt_size_of_scope? present
    exact ⟨fun _ => ⟨⟨clash, rfl⟩, rfl⟩, fun beyond => absurd exists_ (Nat.not_lt.mpr beyond)⟩
  · cases failed.symm.trans same
  · cases failed.symm.trans same
    have registered := register_registered symbols scope name type mutable parameter location
    refine ⟨fun inside => ?_, fun _ => ⟨rfl, rfl, ⟨_, rfl, rfl, rfl⟩, fun other text => ?_, ?_⟩⟩
    · obtain ⟨entry, present⟩ := ScopeChain.scope?_isSome inside
      cases missing.symm.trans present
    · rw [resolve?, resolve?]
      cases found : symbols.scopes.resolve? other text with
      | none => rfl
      | some var =>
          obtain ⟨outer, _, here⟩ := List.exists_of_findSome?_eq_some found
          have old := reached.declared_lt outer text var here
          exact (registered.get? var).trans (if_neg (Nat.ne_of_lt old))
    · intro equal
      have count := registered.count
      rw [← congrArg (fun symbols => symbols.variables.size) equal] at count
      exact Nat.succ_ne_self _ count.symm

theorem declare_failed_lost : ∃ symbols numbers failure after,
    Reached (fun _ _ => True) symbols numbers ∧
    symbols.declare 7 "x" .string false false {} = (.error failure, after) ∧
    symbols.scopes.size = 1 ∧ after.scopes = symbols.scopes ∧
    symbols.variables.frame = ⟨1, 0⟩ ∧ after.variables.frame = ⟨1, 1⟩ ∧
    (∀ other text, after.resolve? other text = symbols.resolve? other text) ∧ after ≠ symbols := by
  have start : Reached (fun _ _ => True) {} fun _ => 0 := .initial
  have reached := start.declares 0 "x" .int false false {} trivial (by cbv) (.free (by cbv))
  have failed : (({} : Symbols).declare 0 "x" .int false false {}).2.declare 7 "x" .string false
      false {} = (.error { fault := .graph (.noScope 7) }, _) := rfl
  obtain ⟨_, scopes, _, resolves, differ⟩ := (reached.declare_failed failed).2 (by decide)
  exact ⟨_, _, _, _, reached, failed, rfl, scopes, by cbv, by cbv, resolves, differ⟩

/-- A declaration can fail and leave something behind. -/
theorem declare_leaves : ¬ ∀ {symbols after : Symbols} {numbers : String → Nat} {scope : ScopeId}
    {name : String} {type : DataType} {mutable parameter : Bool} {location : Location}
    {failure : Failure}, Reached (fun _ _ => True) symbols numbers →
    symbols.declare scope name type mutable parameter location = (.error failure, after) →
    after = symbols := by
  intro unchanged
  have failed : ({} : Symbols).declare 7 "ghost" .int false false {} =
      (.error { fault := .graph (.noScope 7) }, _) := rfl
  have count := congrArg (fun symbols => symbols.variables.size) (unchanged .initial failed)
  exact absurd count (by decide)

end Reached

end Symbols
end Resumable
