import Mathlib.Tactic.Tauto
import Resumable.Lowering.Draft
import Resumable.Proofs.Program.Renamed
import Resumable.Proofs.Outcome
import Resumable.Proofs.Scope.Declaration

/-! What resolving names gives: an expression over local names, with the variables it reads. -/

namespace Resumable

namespace Symbols

/-- A variable goes by a local name. -/
def Named (symbols : Symbols) (var : VarId) (name : String) : Prop :=
  ∃ info, symbols.variables.get? var = some info ∧ info.localName = name

/-- The namings give the listed names the local names of the variables they mean. -/
def Finds (symbols : Symbols) (scope : ScopeId) (namings : List Naming) (names : List String) :
    Prop :=
  ∀ name ∈ names, ∀ info, symbols.resolve? scope name = some info →
    Naming.find? name namings = some info.localName

variable {symbols after : Symbols} {scope : ScopeId} {namings : List Naming}
  {names few : List String} {name : String} {info : Variable}

theorem Finds.mono (finds : Finds symbols scope namings names) (subset : few ⊆ names) :
    Finds symbols scope namings few :=
  fun name present => finds name (subset present)

theorem resolve?_eq_some (sound : symbols.Sound) (found : symbols.resolve? scope name = some info) :
    symbols.scopes.resolve? scope name = some info.id ∧
      symbols.variables.get? info.id = some info := by
  obtain ⟨var, resolved, present⟩ := Option.bind_eq_some_iff.mp found
  rw [sound.numbered var info present]
  exact ⟨resolved, present⟩

theorem mem_visible_of_resolve? {chain : ScopeChain} {var : VarId}
    (found : chain.resolve? scope name = some var) : var ∈ chain.visible scope := by
  obtain ⟨outer, around, here⟩ := List.exists_of_findSome?_eq_some found
  obtain ⟨entry, present, listed⟩ := Option.bind_eq_some_iff.mp here
  obtain ⟨before, behind, split, _⟩ := List.lookup_eq_some_iff.mp listed
  refine List.mem_flatMap.mpr ⟨outer, around, ?_⟩
  rw [ScopeChain.declaredIn, present]
  simp [split]

theorem lt_of_mem_visible (sound : symbols.Sound) {var : Nat}
    (seen : var ∈ symbols.scopes.visible scope) : var < symbols.variables.size := by
  obtain ⟨outer, _, here⟩ := List.mem_flatMap.mp seen
  rw [ScopeChain.declaredIn] at here
  cases present : symbols.scopes.scope? outer with
  | none => simp [present] at here
  | some entry =>
      simp only [present, List.mem_map] at here
      obtain ⟨found, member, rfl⟩ := here
      exact sound.declared outer entry present found member

theorem Named.unique (sound : symbols.Sound) {var other : VarId}
    (named : Named symbols var name) (named' : Named symbols other name) : var = other := by
  obtain ⟨info, present, rfl⟩ := named
  obtain ⟨info', present', same⟩ := named'
  exact sound.named var other info info' present present' same.symm

theorem Named.extend {scope : ScopeId} (extends_ : Extends scope symbols after) {var : VarId}
    (named : Named symbols var name) : Named after var name := by
  obtain ⟨info, present, same⟩ := named
  exact ⟨info, extends_.kept var info present, same⟩

/-- The variables that go by the given names, each of them once. -/
structure Footprint (symbols : Symbols) (names : List String) (vars : List VarId) : Prop where
  covered : ∀ name ∈ names, ∃ var ∈ vars, Named symbols var name
  mentioned : ∀ var ∈ vars, ∃ name ∈ names, Named symbols var name
  distinct : vars.Nodup

namespace Footprint

variable {vars : List VarId}

theorem nil (symbols : Symbols) : Footprint symbols [] [] :=
  ⟨by simp, by simp, .nil⟩

theorem extend {scope : ScopeId} (footprint : Footprint symbols names vars)
    (extends_ : Extends scope symbols after) : Footprint after names vars where
  covered := fun name present =>
    (footprint.covered name present).imp fun _ ⟨listed, named⟩ => ⟨listed, named.extend extends_⟩
  mentioned := fun var listed =>
    (footprint.mentioned var listed).imp fun _ ⟨here, named⟩ => ⟨here, named.extend extends_⟩
  distinct := footprint.distinct

theorem mem_iff (footprint : Footprint symbols names vars) (sound : symbols.Sound) {var : VarId} :
    var ∈ vars ↔ ∃ name ∈ names, Named symbols var name := by
  refine ⟨footprint.mentioned var, fun ⟨name, present, named⟩ => ?_⟩
  obtain ⟨other, listed, named'⟩ := footprint.covered name present
  exact named.unique sound named' ▸ listed

end Footprint

end Symbols

open Symbols

theorem mem_addMissing {xs ys : List VarId} {var : VarId} :
    var ∈ addMissing xs ys ↔ var ∈ xs ∨ var ∈ ys := by
  simp only [addMissing, List.mem_append, List.mem_filter, List.contains_eq_mem, Bool.not_eq_true',
    decide_eq_false_iff_not]
  tauto

theorem nodup_addMissing {xs ys : List VarId} (distinct : xs.Nodup) (distinct' : ys.Nodup) :
    (addMissing xs ys).Nodup := by
  refine List.nodup_append.mpr ⟨distinct, distinct'.filter _, ?_⟩
  rintro var known _ new rfl
  simp [known] at new

/-- What resolving finds: variables that are visible, each by one of the given names. -/
structure Covers (symbols : Symbols) (scope : ScopeId) (names : List String)
    (found found' : List VarId) : Prop where
  grows : found ⊆ found'
  distinct : found.Nodup → found'.Nodup
  visible : ∀ var ∈ found', var ∈ found ∨ var ∈ symbols.scopes.visible scope
  covered : ∀ name ∈ names, ∃ var ∈ found', Named symbols var name
  mentioned : ∀ var ∈ found', var ∈ found ∨ ∃ name ∈ names, Named symbols var name

namespace Covers

variable {symbols : Symbols} {scope : ScopeId} {names more : List String}
  {found found' found'' : List VarId}

theorem none (found : List VarId) : Covers symbols scope [] found found :=
  ⟨List.Subset.refl _, id, fun _ => .inl, by simp, fun _ => .inl⟩

theorem add {name : String} {info : Variable} (found : List VarId)
    (inChain : symbols.scopes.resolve? scope name = some info.id)
    (present : symbols.variables.get? info.id = some info) :
    Covers symbols scope [info.localName] found (addMissing found [info.id]) := by
  have named : Named symbols info.id info.localName := ⟨info, present, rfl⟩
  refine ⟨fun var listed => mem_addMissing.mpr (.inl listed), fun distinct => ?_, ?_, ?_, ?_⟩
  · exact nodup_addMissing distinct (List.nodup_singleton _)
  · intro var listed
    refine (mem_addMissing.mp listed).imp_right fun new => ?_
    rw [List.mem_singleton.mp new]
    exact mem_visible_of_resolve? inChain
  · intro other here
    rw [List.mem_singleton.mp here]
    exact ⟨info.id, mem_addMissing.mpr (.inr (by simp)), named⟩
  · intro var listed
    refine (mem_addMissing.mp listed).imp_right fun new => ?_
    rw [List.mem_singleton.mp new]
    exact ⟨info.localName, by simp, named⟩

theorem append (first : Covers symbols scope names found found')
    (second : Covers symbols scope more found' found'') :
    Covers symbols scope (names ++ more) found found'' := by
  refine ⟨List.Subset.trans first.grows second.grows, second.distinct ∘ first.distinct, ?_, ?_, ?_⟩
  · intro var present
    rcases second.visible var present with old | seen
    · exact first.visible var old
    · exact .inr seen
  · intro name present
    rcases List.mem_append.mp present with here | here
    · obtain ⟨var, listed, named⟩ := first.covered name here
      exact ⟨var, second.grows listed, named⟩
    · exact second.covered name here
  · intro var present
    rcases second.mentioned var present with old | ⟨name, here, named⟩
    · refine (first.mentioned var old).imp_right fun ⟨name, here, named⟩ => ?_
      exact ⟨name, List.mem_append_left _ here, named⟩
    · exact .inr ⟨name, List.mem_append_right _ here, named⟩

theorem addMissing (covers : Covers symbols scope names [] found') (reads : List VarId) :
    Covers symbols scope names reads (addMissing reads found') := by
  refine ⟨fun var listed => mem_addMissing.mpr (.inl listed), fun distinct => ?_, ?_, ?_, ?_⟩
  · exact nodup_addMissing distinct (covers.distinct List.nodup_nil)
  · intro var listed
    refine (mem_addMissing.mp listed).imp_right fun new => ?_
    exact (covers.visible var new).resolve_left (List.not_mem_nil)
  · intro name present
    obtain ⟨var, listed, named⟩ := covers.covered name present
    exact ⟨var, mem_addMissing.mpr (.inr listed), named⟩
  · intro var listed
    refine (mem_addMissing.mp listed).imp_right fun new => ?_
    exact (covers.mentioned var new).resolve_left (List.not_mem_nil)

theorem footprint (covers : Covers symbols scope names [] found) :
    Footprint symbols names found where
  covered := covers.covered
  mentioned := fun var listed => (covers.mentioned var listed).resolve_left (List.not_mem_nil)
  distinct := covers.distinct List.nodup_nil

end Covers

section Expressions

variable {symbols : Symbols} {scope : ScopeId}

theorem rename_ok (sound : symbols.Sound) {name localName : String} {location : Location}
    {found found' : List VarId}
    (renamed : symbols.rename scope name location found = .ok (localName, found')) :
    Covers symbols scope [localName] found found' ∧ ∀ namings,
      Finds symbols scope namings [name] → Naming.find? name namings = some localName := by
  unfold rename at renamed
  cases resolved : symbols.resolve? scope name with
  | none => simp [resolved] at renamed
  | some info =>
      obtain ⟨inChain, present⟩ := resolve?_eq_some sound resolved
      simp only [resolved, Except.ok.injEq, Prod.mk.injEq] at renamed
      obtain ⟨rfl, rfl⟩ := renamed
      exact ⟨.add found inChain present, fun namings finds => finds name (by simp) info resolved⟩

mutual

theorem Expr.mapReferences_rename (sound : symbols.Sound) (e : Expr) {e' : Expr}
    {found found' : List VarId}
    (done : e.mapReferences (symbols.rename scope) found = .ok (e', found')) :
    Covers symbols scope e'.references found found' ∧ ∀ namings,
      Finds symbols scope namings e.references →
      e.mapReferences (fun name _ => Naming.find? name namings) = some e' := by
  match e with
  | .literal value mark =>
      obtain ⟨rfl, rfl⟩ := pure_ok done
      exact ⟨.none _, fun _ _ => rfl⟩
  | .reference name mark =>
      obtain ⟨localName, _, renamed, last⟩ := bind_ok done
      obtain ⟨rfl, rfl⟩ := pure_ok last
      obtain ⟨covers, finds⟩ := rename_ok sound renamed
      refine ⟨covers, fun namings agree => ?_⟩
      simp [Expr.mapReferences, finds namings agree]
  | .binary op left right mark =>
      obtain ⟨left', _, first, rest⟩ := bind_ok done
      obtain ⟨right', _, second, last⟩ := bind_ok rest
      obtain ⟨rfl, rfl⟩ := pure_ok last
      obtain ⟨covers, finds⟩ := Expr.mapReferences_rename sound left first
      obtain ⟨covers', finds'⟩ := Expr.mapReferences_rename sound right second
      refine ⟨covers.append covers', fun namings agree => ?_⟩
      simp [Expr.mapReferences, finds namings (agree.mono (List.subset_append_left _ _)),
        finds' namings (agree.mono (List.subset_append_right _ _))]
  | .unary op operand mark =>
      obtain ⟨operand', _, first, last⟩ := bind_ok done
      obtain ⟨rfl, rfl⟩ := pure_ok last
      obtain ⟨covers, finds⟩ := Expr.mapReferences_rename sound operand first
      refine ⟨covers, fun namings agree => ?_⟩
      simp [Expr.mapReferences, finds namings agree]
  | .call name args mark =>
      obtain ⟨args', _, first, last⟩ := bind_ok done
      obtain ⟨rfl, rfl⟩ := pure_ok last
      obtain ⟨covers, finds⟩ := Expr.mapAllReferences_rename sound args first
      refine ⟨covers, fun namings agree => ?_⟩
      simp [Expr.mapReferences, finds namings agree]
  | .suspend payload mark =>
      obtain ⟨payload', _, first, last⟩ := bind_ok done
      obtain ⟨rfl, rfl⟩ := pure_ok last
      obtain ⟨covers, finds⟩ := Expr.mapReferences_rename sound payload first
      refine ⟨covers, fun namings agree => ?_⟩
      simp [Expr.mapReferences, finds namings agree]
  | .function params yieldType body mark =>
      obtain ⟨rfl, rfl⟩ := pure_ok done
      exact ⟨.none _, fun _ _ => rfl⟩

theorem Expr.mapAllReferences_rename (sound : symbols.Sound) (es : List Expr) {es' : List Expr}
    {found found' : List VarId}
    (done : Expr.mapAllReferences (symbols.rename scope) es found = .ok (es', found')) :
    Covers symbols scope (Expr.allReferences es') found found' ∧ ∀ namings,
      Finds symbols scope namings (Expr.allReferences es) →
      Expr.mapAllReferences (fun name _ => Naming.find? name namings) es = some es' := by
  match es with
  | [] =>
      obtain ⟨rfl, rfl⟩ := pure_ok done
      exact ⟨.none _, fun _ _ => rfl⟩
  | e :: rest =>
      obtain ⟨e', _, first, others⟩ := bind_ok done
      obtain ⟨rest', _, second, last⟩ := bind_ok others
      obtain ⟨rfl, rfl⟩ := pure_ok last
      obtain ⟨covers, finds⟩ := Expr.mapReferences_rename sound e first
      obtain ⟨covers', finds'⟩ := Expr.mapAllReferences_rename sound rest second
      refine ⟨covers.append covers', fun namings agree => ?_⟩
      simp [Expr.mapAllReferences, finds namings (agree.mono (List.subset_append_left _ _)),
        finds' namings (agree.mono (List.subset_append_right _ _))]

end

end Expressions

theorem Expr.requirePlain_ok {e : Expr} (plain : e.requirePlain = .ok ()) :
    e.suspends = false ∧ e.holdsFunction = false := by
  unfold Expr.requirePlain at plain
  split at plain
  · cases plain
  · split at plain
    · cases plain
    · rename_i quiet pure_
      exact ⟨by simpa using quiet, by simpa using pure_⟩

namespace Lower

variable {draft after : Draft} {scope : ScopeId}

/-- An expression that was resolved in a scope. -/
structure Resolved (symbols : Symbols) (scope : ScopeId) (e e' : Expr) (reads reads' : List VarId) :
    Prop where
  covers : Covers symbols scope e'.references reads reads'
  renamed : e.suspends = false → e.holdsFunction = false → ∀ namings,
    Finds symbols scope namings e.references → e.Renamed namings e'

theorem resolve_ok (sound : draft.symbols.Sound) {e e' : Expr} {reads reads' : List VarId}
    (done : resolve scope e reads draft = .ok ((e', reads'), after)) :
    Resolved draft.symbols scope e e' reads reads' ∧ after.symbols = draft.symbols ∧
      after.graph = draft.graph := by
  unfold resolve at done
  cases resolved : draft.symbols.resolveExpr scope e with
  | error => simp [resolved] at done
  | ok pair =>
      obtain ⟨inner, found⟩ := pair
      simp only [resolved, Except.ok.injEq, Prod.mk.injEq] at done
      obtain ⟨⟨rfl, rfl⟩, rfl⟩ := done
      obtain ⟨covers, finds⟩ := Expr.mapReferences_rename sound e resolved
      exact ⟨⟨covers.addMissing reads, fun quiet plain namings agree =>
        ⟨finds namings agree, quiet, plain⟩⟩, rfl, rfl⟩

/-- A target that was resolved in a scope: a variable that may change. -/
structure Targeted (symbols : Symbols) (scope : ScopeId) (name localName : String)
    (reads reads' : List VarId) : Prop where
  covers : Covers symbols scope [localName] reads reads'
  finds : ∀ namings, Finds symbols scope namings [name] →
    Naming.find? name namings = some localName
  mutable : ∃ var info, symbols.variables.get? var = some info ∧ info.localName = localName ∧
    info.mutable = true

theorem resolveTarget_ok (sound : draft.symbols.Sound) {name localName : String}
    {location : Location} {reads reads' : List VarId}
    (done : resolveTarget scope name location reads draft = .ok ((localName, reads'), after)) :
    Targeted draft.symbols scope name localName reads reads' ∧ after = draft := by
  obtain ⟨_, _, got, rest⟩ := bind_ok done
  cases got
  obtain ⟨info, _, targeted, last⟩ := bind_ok rest
  obtain ⟨targeted, rfl⟩ := lift_ok targeted
  obtain ⟨equal, rfl⟩ := pure_ok last
  cases equal
  unfold Symbols.target at targeted
  cases resolved : after.symbols.resolve? scope name with
  | none => simp [resolved] at targeted
  | some found =>
      simp only [resolved] at targeted
      split at targeted
      · rename_i changes
        cases targeted
        obtain ⟨inChain, present⟩ := resolve?_eq_some sound resolved
        exact ⟨⟨.add reads inChain present, fun namings finds => finds name (by simp) info resolved,
          info.id, info, present, rfl, changes⟩, rfl⟩
      · cases targeted

end Lower
end Resumable
