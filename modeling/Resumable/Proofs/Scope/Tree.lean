import Mathlib.Data.Finset.Card
import Mathlib.Logic.Relation
import Mathlib.Order.WellFoundedSet
import Resumable.Proofs.Scope.Chain
import Resumable.Scope.Variable

/-! When scopes form a tree, and that this is where the walks outward end. Nothing keeps a scope
from being opened in one that is yet to come; then it may lie inside itself. -/

namespace Resumable.ScopeChain

variable {chain chain' : ScopeChain} {scope inner outer : ScopeId} {outers : List ScopeId}
variable {α : Type} {look : ScopeId → Option α} {met : List ScopeId} {sight : Option α}

/-- The second scope is the one around the first. -/
def Around (chain : ScopeChain) (inner outer : ScopeId) : Prop := chain.outer? inner = some outer

def Inside (chain : ScopeChain) : ScopeId → ScopeId → Prop := Relation.TransGen chain.Around

def IsTree (chain : ScopeChain) : Prop := ∀ scope, ¬ chain.Inside scope scope

/-- A walk outward that goes all the way, with the scopes it meets. Nothing bounds its steps. -/
inductive Passes (chain : ScopeChain) : ScopeId → List ScopeId → Prop
  | ended {scope : ScopeId} : chain.outer? scope = none → Passes chain scope [scope]
  | onward {scope outer : ScopeId} {met : List ScopeId} : chain.Around scope outer →
      Passes chain outer met → Passes chain scope (scope :: met)

/-- A walk outward that looks at each scope it comes to. It stops where it sees something, and has
seen nothing where no scope is further out. Nothing bounds its steps. -/
inductive Climbs (chain : ScopeChain) (look : ScopeId → Option α) : ScopeId → Option α → Prop
  | found {scope : ScopeId} {thing : α} : look scope = some thing →
      Climbs chain look scope (some thing)
  | ended {scope : ScopeId} : look scope = none → chain.outer? scope = none →
      Climbs chain look scope none
  | onward {scope outer : ScopeId} {sight : Option α} : look scope = none →
      chain.Around scope outer → Climbs chain look outer sight → Climbs chain look scope sight

/-- All walks from a scope end, with the answers of the bounded walk: the one that collects what is
visible, the one for the declaration of a name, the one for a scope around this one, and the one for
the place where slots start. -/
structure WalksEnd (chain : ScopeChain) (scope : ScopeId) : Prop where
  visible : ∃ met, chain.Passes scope met ∧ chain.visible scope = met.flatMap chain.declaredIn
  resolves : ∀ name, chain.Climbs (chain.declaredHere? · name) scope (chain.resolve? scope name)
  within : ∀ outer, ∃ sight, chain.Climbs (fun other => if other = outer then some () else none)
    scope sight ∧ chain.isWithin scope outer = sight.isSome
  starts : ∀ table : VariableTable, ∃ sight, chain.Climbs (table.next.lookup ·) scope sight ∧
    table.firstFree chain scope = sight.getD {}

section Ends

theorem Around.eq {other : ScopeId} (around : chain.Around scope outer)
    (around' : chain.Around scope other) : outer = other :=
  Option.some.inj (around.symm.trans around')

/-- From a scope that lies inside itself, a walk that sees nothing there has no end. -/
theorem Inside.endless (inside : chain.Inside scope scope)
    (blind : ∀ other, chain.Inside scope other → look other = none) :
    ¬ chain.Climbs look scope sight := by
  intro climbs
  induction climbs with
  | found seen => cases (blind _ inside).symm.trans seen
  | ended _ alone =>
      obtain ⟨outer, first, _⟩ := Relation.TransGen.head'_iff.mp inside
      cases alone.symm.trans first
  | onward _ around _ ih =>
      obtain ⟨next, first, back⟩ := Relation.TransGen.head'_iff.mp inside
      obtain rfl := around.eq first
      exact ih (Relation.TransGen.tail' back first) fun other further =>
        blind other (.head around further)

theorem Passes.climbs (passes : chain.Passes scope met) (look : ScopeId → Option α) :
    chain.Climbs look scope (met.findSome? look) := by
  induction passes with
  | @ended scope alone =>
      rw [List.findSome?_singleton]
      cases seen : look scope with
      | none => exact .ended seen alone
      | some thing => exact .found seen
  | @onward scope _ _ around _ ih =>
      rw [List.findSome?_cons]
      cases seen : look scope with
      | none => exact .onward seen around ih
      | some thing => exact .found seen

theorem Passes.not_inside (passes : chain.Passes scope met) : ¬ chain.Inside scope scope := by
  intro inside
  have climbs := passes.climbs fun _ => (none : Option Unit)
  exact inside.endless (fun _ _ => rfl) climbs

/-- The scopes around a scope come before it. They are finitely many, so this is well-founded where
none lies inside itself. -/
theorem IsTree.wellFounded (tree : chain.IsTree) :
    WellFounded fun outer inner => chain.Around inner outer := by
  have order : IsStrictOrder ScopeId fun outer inner => chain.Inside inner outer :=
    { irrefl := tree
      trans := fun _ _ _ first second => second.trans first }
  have among : (Set.Iio chain.size).WellFoundedOn fun outer inner => chain.Inside inner outer :=
    (Set.finite_Iio chain.size).wellFoundedOn
  have beyond (scope : ScopeId) (unknown : chain.size ≤ scope) :
      Acc (fun outer inner => chain.Around inner outer) scope :=
    ⟨scope, fun outer around => absurd (lt_size_of_outer? around) (Nat.not_lt.mpr unknown)⟩
  refine ⟨fun scope => ?_⟩
  rcases Nat.lt_or_ge scope chain.size with known | unknown
  · refine among.induction known fun scope _ ih => ⟨scope, fun outer around => ?_⟩
    rcases Nat.lt_or_ge outer chain.size with known | unknown
    · exact ih outer known (.single around)
    · exact beyond outer unknown
  · exact beyond scope unknown

theorem IsTree.passes (tree : chain.IsTree) (scope : ScopeId) : ∃ met, chain.Passes scope met := by
  induction scope using tree.wellFounded.induction with
  | _ scope ih =>
      cases around : chain.outer? scope with
      | none => exact ⟨[scope], .ended around⟩
      | some outer =>
          obtain ⟨met, passes⟩ := ih outer around
          exact ⟨scope :: met, .onward around passes⟩

end Ends

section Answers

theorem Passes.inside_of_mem (passes : chain.Passes scope met) :
    ∀ other ∈ met, other = scope ∨ chain.Inside scope other := by
  induction passes with
  | ended => simp
  | onward around _ ih =>
      intro other member
      rcases List.mem_cons.mp member with rfl | further
      · exact .inl rfl
      · rcases ih other further with rfl | inside
        · exact .inr (.single around)
        · exact .inr (.head around inside)

theorem Passes.nodup (passes : chain.Passes scope met) : met.Nodup := by
  induction passes with
  | ended => simp
  | @onward scope outer met around further ih =>
      refine List.nodup_cons.mpr ⟨fun again => ?_, ih⟩
      refine (Passes.onward around further).not_inside ?_
      rcases further.inside_of_mem scope again with rfl | inside
      · exact .single around
      · exact .head around inside

theorem Passes.dropLast_lt (passes : chain.Passes scope met) :
    ∀ other ∈ met.dropLast, other < chain.size := by
  induction passes with
  | ended => simp
  | @onward scope outer met around further ih =>
      intro other member
      have more : met ≠ [] := by cases further <;> simp
      rw [List.dropLast_cons_of_ne_nil more] at member
      rcases List.mem_cons.mp member with rfl | behind
      · exact lt_size_of_outer? around
      · exact ih other behind

theorem Passes.length_le (passes : chain.Passes scope met) : met.length ≤ chain.size + 1 := by
  have once : met.dropLast.Nodup := passes.nodup.sublist (List.dropLast_sublist met)
  have inside : met.dropLast ⊆ List.range chain.size := fun other member =>
    List.mem_range.mpr (passes.dropLast_lt other member)
  have few : met.dropLast.length ≤ (List.range chain.size).length :=
    (once.subperm inside).length_le
  rw [List.length_dropLast, List.length_range] at few
  omega

theorem Passes.walk_eq (passes : chain.Passes scope met) (steps : Nat) :
    chain.walk steps scope = met.take steps := by
  induction passes generalizing steps with
  | ended alone =>
      cases steps with
      | zero => rfl
      | succ steps => rw [walk, alone, List.take_succ_cons, List.take_nil]
  | onward around _ ih =>
      cases steps with
      | zero => rfl
      | succ steps =>
          rw [walk, around, List.take_succ_cons]
          simp only [ih]

theorem Passes.outward_eq (passes : chain.Passes scope met) : chain.outward scope = met := by
  rw [outward, passes.walk_eq, List.take_of_length_le passes.length_le]

theorem Passes.walksEnd (passes : chain.Passes scope met) : chain.WalksEnd scope := by
  have whole := passes.outward_eq
  refine ⟨⟨met, passes, ?_⟩, fun name => ?_, fun outer => ⟨_, passes.climbs _, ?_⟩,
    fun table => ⟨_, passes.climbs _, ?_⟩⟩
  · rw [ScopeChain.visible, whole]
  · rw [ScopeChain.resolve?, whole]
    exact passes.climbs _
  · rw [ScopeChain.isWithin, whole, Bool.eq_iff_iff, List.contains_iff_mem,
      List.findSome?_isSome_iff]
    simp
  · rw [VariableTable.firstFree, whole]

/-- The scopes are a tree exactly where all walks end. -/
theorem isTree_iff_walksEnd : chain.IsTree ↔ ∀ scope, chain.WalksEnd scope := by
  constructor
  · intro tree scope
    obtain ⟨met, passes⟩ := tree.passes scope
    exact passes.walksEnd
  · intro ends scope
    obtain ⟨met, passes, _⟩ := (ends scope).visible
    exact passes.not_inside

end Answers

section Openings

theorem outer?_openScope (chain : ScopeChain) (outer scope : ScopeId) :
    (chain.openScope outer).outer? scope =
      if scope = chain.size then some outer else chain.outer? scope := by
  rw [outer?, scope?_openScope]
  split <;> rfl

theorem around_openScope : (chain.openScope outer).Around scope inner ↔
    chain.Around scope inner ∨ (scope = chain.size ∧ outer = inner) := by
  have fresh : chain.outer? chain.size = none := by
    cases found : chain.outer? chain.size with
    | none => rfl
    | some outer => exact absurd (lt_size_of_outer? found) (Nat.lt_irrefl _)
  rw [Around, Around, outer?_openScope]
  by_cases last : scope = chain.size
  · simp [last, fresh]
  · simp [last]

/-- What lies inside what after a scope was opened: the old pairs, and those that meet in the new
scope. -/
theorem inside_openScope (inside : (chain.openScope outer).Inside scope inner) :
    chain.Inside scope inner ∨ (Relation.ReflTransGen chain.Around scope chain.size ∧
      Relation.ReflTransGen chain.Around outer inner) := by
  induction inside with
  | single first =>
      rcases around_openScope.mp first with old | ⟨rfl, rfl⟩
      · exact .inl (.single old)
      · exact .inr ⟨.refl, .refl⟩
  | tail _ last ih =>
      rcases around_openScope.mp last with old | ⟨rfl, rfl⟩
      · exact ih.imp (·.tail old) fun ⟨before, after⟩ => ⟨before, after.tail old⟩
      · rcases ih with inside | ⟨before, _⟩
        · exact .inr ⟨inside.to_reflTransGen, .refl⟩
        · exact .inr ⟨before, .refl⟩

theorem Inside.openScope (inside : chain.Inside scope inner) (outer : ScopeId) :
    (chain.openScope outer).Inside scope inner :=
  Relation.TransGen.mono (fun _ _ around => around_openScope.mpr (.inl around)) _ _ inside

/-- An opening keeps a tree, unless the scope it is asked to open in is the new one or lies inside
it already. -/
theorem isTree_openScope : (chain.openScope outer).IsTree ↔
    chain.IsTree ∧ outer ≠ chain.size ∧ ¬ chain.Inside outer chain.size := by
  have fresh : (chain.openScope outer).Around chain.size outer :=
    around_openScope.mpr (.inr ⟨rfl, rfl⟩)
  constructor
  · intro tree
    refine ⟨fun scope inside => tree scope (inside.openScope outer), fun same => ?_,
      fun ahead => ?_⟩
    · exact tree chain.size (.single (same ▸ fresh))
    · exact tree chain.size (.head fresh (ahead.openScope outer))
  · rintro ⟨tree, apart, notAhead⟩ scope inside
    rcases inside_openScope inside with old | ⟨before, after⟩
    · exact tree scope old
    · rcases Relation.reflTransGen_iff_eq_or_transGen.mp (after.trans before) with same | ahead
      · exact apart same.symm
      · exact notAhead ahead

/-- The scopes behind the root were opened one by one, each inside the scope that the list has for
it. Any scope may stand there, one that doesn't exist yet as well. -/
def OpenedIn (chain : ScopeChain) (outers : List ScopeId) : Prop :=
  chain.scopes.toList.map Scope.outer = none :: outers.map some

theorem openedIn_initial : initial.OpenedIn [] := rfl

theorem OpenedIn.opens (opened : chain.OpenedIn outers) (outer : ScopeId) :
    (chain.openScope outer).OpenedIn (outers ++ [outer]) := by
  rw [OpenedIn] at opened ⊢
  simp [openScope, opened]

theorem OpenedIn.binds {name : String} {var : VarId} (opened : chain.OpenedIn outers)
    (bound : chain.bind? scope name var = some chain') : chain'.OpenedIn outers := by
  obtain ⟨entry, present, _, entries⟩ := bind?_eq_some bound
  have kept (other : Nat) :
      (chain'.scope? other).map Scope.outer = (chain.scope? other).map Scope.outer := by
    rw [entries]
    split
    · next here =>
      rw [here, present]
      rfl
    · rfl
  rw [OpenedIn, ← opened]
  refine List.ext_getElem? fun other => ?_
  rw [List.getElem?_map, List.getElem?_map, Array.getElem?_toList, Array.getElem?_toList]
  exact kept other

/-- Where every opening names a scope that exists at that time, each scope comes after the one
around it. -/
theorem OpenedIn.rooted (opened : chain.OpenedIn outers)
    (existing : ∀ index, (inside : index < outers.length) → outers[index] ≤ index) :
    chain.Rooted := by
  intro inner outer around
  have listed : (none :: outers.map some)[inner]? = some (some outer) := by
    obtain ⟨entry, present, outside⟩ := Option.bind_eq_some_iff.mp around
    have old : chain.scopes[inner]? = some entry := present
    rw [← opened, List.getElem?_map, Array.getElem?_toList, old, Option.map_some, outside]
  cases inner with
  | zero => cases listed
  | succ index =>
      rw [List.getElem?_cons_succ, List.getElem?_map] at listed
      obtain ⟨_, found, is⟩ := Option.map_eq_some_iff.mp listed
      cases is
      obtain ⟨inside, rfl⟩ := List.getElem?_eq_some_iff.mp found
      exact Nat.lt_succ_of_le (existing index inside)

theorem Rooted.isTree (rooted : chain.Rooted) : chain.IsTree := by
  have below : ∀ {inner outer}, chain.Inside inner outer → outer < inner := by
    intro inner outer inside
    induction inside with
    | single around => exact rooted _ _ around
    | tail _ around ih => exact Nat.lt_trans (rooted _ _ around) ih
  exact fun scope inside => Nat.lt_irrefl scope (below inside)

/-- A chain is a tree exactly if all walks outward end. From a scope that lies inside itself, the
search for a name that is declared nowhere around it has none. An opening keeps a tree unless it names
the new scope, or one that lies inside that already because it was opened in a scope yet to come.
Whatever is declared, the scopes are a tree where each was opened in one that existed. -/
theorem tree_iff (chain : ScopeChain) :
    (chain.IsTree ↔ ∀ scope, chain.WalksEnd scope) ∧
    (∀ scope name, chain.Inside scope scope →
      (∀ outer, chain.Inside scope outer → chain.declaredHere? outer name = none) →
      ¬ ∃ sight, chain.Climbs (chain.declaredHere? · name) scope sight) ∧
    (∀ outer, (chain.openScope outer).IsTree ↔
      chain.IsTree ∧ outer ≠ chain.size ∧ ¬ chain.Inside outer chain.size) ∧
    ∀ outers : List ScopeId, chain.OpenedIn outers →
      (∀ outer, (chain.openScope outer).OpenedIn (outers ++ [outer])) ∧
      (∀ scope name var chain', chain.bind? scope name var = some chain' →
        chain'.OpenedIn outers) ∧
      ((∀ index, (inside : index < outers.length) → outers[index] ≤ index) →
        ∀ scope, ¬ chain.Inside scope scope ∧ chain.WalksEnd scope) := by
  refine ⟨isTree_iff_walksEnd, fun scope name inside blind => ?_, fun outer => isTree_openScope,
    fun outers opened => ⟨opened.opens, fun _ _ _ _ bound => opened.binds bound,
      fun existing scope => ?_⟩⟩
  · rintro ⟨sight, climbs⟩
    exact inside.endless blind climbs
  · have tree := (opened.rooted existing).isTree
    exact ⟨tree scope, isTree_iff_walksEnd.mp tree scope⟩

theorem tree_iff_nested : ((initial.openScope 0).openScope 1).OpenedIn [0, 1] ∧
    (∀ index, (inside : index < [0, 1].length) → [0, 1][index] ≤ index) ∧
    ∀ scope, ((initial.openScope 0).openScope 1).WalksEnd scope := by
  have opened : ((initial.openScope 0).openScope 1).OpenedIn [0, 1] :=
    (openedIn_initial.opens 0).opens 1
  have existing : ∀ index, (inside : index < [0, 1].length) → [0, 1][index] ≤ index := by decide
  obtain ⟨_, _, _, each⟩ := tree_iff ((initial.openScope 0).openScope 1)
  exact ⟨opened, existing, fun scope => ((each [0, 1] opened).2.2 existing scope).2⟩

/-- A scope is opened in the next one, and that in the first. Then each lies inside itself, and the
search for a name has no end there. -/
theorem loops : ((initial.openScope 2).openScope 1).OpenedIn [2, 1] ∧
    ((initial.openScope 2).openScope 1).Inside 1 1 ∧
    ∀ name, ¬ ∃ sight, ((initial.openScope 2).openScope 1).Climbs
      (((initial.openScope 2).openScope 1).declaredHere? · name) 1 sight := by
  have outward : ((initial.openScope 2).openScope 1).Around 1 2 := rfl
  have back : ((initial.openScope 2).openScope 1).Around 2 1 := rfl
  have inside : ((initial.openScope 2).openScope 1).Inside 1 1 := .tail (.single outward) back
  refine ⟨(openedIn_initial.opens 2).opens 1, inside, fun name ⟨sight, climbs⟩ => ?_⟩
  refine inside.endless (fun other _ => ?_) climbs
  rcases other with _ | _ | _ | other <;> rfl

end Openings

end Resumable.ScopeChain
