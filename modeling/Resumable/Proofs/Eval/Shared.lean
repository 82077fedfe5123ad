import Mathlib.Data.List.Dedup
import Resumable.Proofs.Eval.Twin
import Resumable.Proofs.Lowering.Fits

/-! Environments that share the values of some variables. Code that refers to no others runs alike
in both of them, whatever else they hold. -/

namespace Resumable

open Symbols

/-- Every one of the variables has a value, and the same in both environments. -/
def Shared (symbols : Symbols) (vars : List VarId) (left right : Env) : Prop :=
  ∀ var ∈ vars, ∃ info value, symbols.variables.get? var = some info ∧
    left.get? info.localName = some value ∧ right.get? info.localName = some value

namespace Shared

variable {symbols : Symbols} {vars few : List VarId} {left right : Env}

theorem mono (shared : Shared symbols vars left right) (subset : few ⊆ vars) :
    Shared symbols few left right :=
  fun var member => shared var (subset member)

theorem values (shared : Shared symbols vars left right) {var : VarId} (member : var ∈ vars)
    {name : String} (named : Named symbols var name) :
    ∃ value, left.get? name = some value ∧ right.get? name = some value := by
  obtain ⟨info, value, present, inLeft, inRight⟩ := shared var member
  obtain ⟨info', present', rfl⟩ := named
  rw [present, Option.some.injEq] at present'
  subst present'
  exact ⟨value, inLeft, inRight⟩

theorem congr {left' right' : Env} (shared : Shared symbols vars left right)
    (same : ∀ var ∈ vars, ∀ name, Named symbols var name → left'.get? name = left.get? name)
    (same' : ∀ var ∈ vars, ∀ name, Named symbols var name → right'.get? name = right.get? name) :
    Shared symbols vars left' right' := by
  intro var member
  obtain ⟨info, value, present, inLeft, inRight⟩ := shared var member
  have named : Named symbols var info.localName := ⟨info, present, rfl⟩
  exact ⟨info, value, present, (same var member _ named).trans inLeft,
    (same' var member _ named).trans inRight⟩

def names (symbols : Symbols) (vars : List VarId) : List String :=
  (vars.filterMap fun var => (symbols.variables.get? var).map Variable.localName).dedup

theorem mem_names {name : String} :
    name ∈ names symbols vars ↔ ∃ var ∈ vars, Named symbols var name := by
  simp [names, Named]

def common (symbols : Symbols) (vars : List VarId) (env : Env) : Env :=
  [(names symbols vars).map fun name => (name, (env.get? name).getD .unit)]

theorem lookup_common {names : List String} {value : String → Value} {name : String}
    (member : name ∈ names) :
    (names.map fun name => (name, value name)).lookup name = some (value name) := by
  induction names with
  | nil => cases member
  | cons head rest ih =>
      rw [List.map_cons, Env.lookup_cons]
      by_cases same : name = head
      · rw [if_pos same, same]
      · rw [if_neg same]
        exact ih ((List.mem_cons.mp member).resolve_left same)

theorem placed_of_common {env : Env}
    (same : ∀ name ∈ names symbols vars, ∃ value, left.get? name = some value ∧
      env.get? name = some value) :
    Placed [Naming.same (names symbols vars)] (common symbols vars left) env := by
  have keys : ∀ value : String → Value,
      ((names symbols vars).map fun name => (name, value name)).map Prod.fst =
        names symbols vars := by
    intro value
    simp [Function.comp_def]
  refine ⟨?_, .cons ⟨?_, ?_⟩ .nil⟩
  · have locals := Naming.locals_same [names symbols vars]
    rw [List.map_singleton, List.flatten_singleton] at locals
    rw [locals]
    exact List.nodup_dedup _
  · rw [keys]
    simp [Naming.same, Function.comp_def]
  · intro name localName found
    rw [Naming.lookup_same] at found
    split at found
    · rename_i member
      cases found
      obtain ⟨value, inLeft, there⟩ := same name member
      rw [lookup_common member, inLeft, there, Option.getD_some]
    · cases found

theorem placed_left (shared : Shared symbols vars left right) :
    Placed [Naming.same (names symbols vars)] (common symbols vars left) left := by
  refine placed_of_common fun name member => ?_
  obtain ⟨var, listed, named⟩ := mem_names.mp member
  obtain ⟨value, inLeft, _⟩ := shared.values listed named
  exact ⟨value, inLeft, inLeft⟩

theorem placed_right (shared : Shared symbols vars left right) :
    Placed [Naming.same (names symbols vars)] (common symbols vars left) right := by
  refine placed_of_common fun name member => ?_
  obtain ⟨var, listed, named⟩ := mem_names.mp member
  exact shared.values listed named

theorem of_placed {naming : Naming} {source : Env} (inLeft : Placed [naming] source left)
    (inRight : Placed [naming] source right)
    (known : ∀ var ∈ vars, ∃ name, Named symbols var name ∧ naming.lookup name = some name) :
    Shared symbols vars left right := by
  intro var member
  obtain ⟨_, ⟨info, present, rfl⟩, found⟩ := known var member
  have found' : Naming.find? info.localName [naming] = some info.localName := by
    simp [Naming.find?, found]
  obtain ⟨value, there, first⟩ := inLeft.get?_eq found'
  obtain ⟨value', there', second⟩ := inRight.get?_eq found'
  rw [there, Option.some.injEq] at there'
  subst there'
  exact ⟨info, value, present, first, second⟩

variable {reads : List VarId}

theorem self_renamed {e : Expr} (fits : e.Fits symbols reads) (inside : reads ⊆ vars) :
    e.Renamed [Naming.same (names symbols vars)] e := by
  obtain ⟨source, namings, renamed⟩ := fits.renamed
  refine Expr.Renamed.self [names symbols vars] source renamed fun name referred => ?_
  obtain ⟨var, listed, named⟩ := fits.covered name referred
  rw [List.flatten_singleton]
  exact mem_names.mpr ⟨var, inside listed, named⟩

theorem eval {e : Expr} (shared : Shared symbols vars left right) (fits : e.Fits symbols reads)
    (inside : reads ⊆ vars) : e.eval right = e.eval left := by
  have renamed := self_renamed fits inside
  rw [e.eval_renamed shared.placed_left renamed, e.eval_renamed shared.placed_right renamed]

theorem eval_own {e : Expr} {failure : Failure} (shared : Shared symbols vars left right)
    (fits : e.Fits symbols reads) (inside : reads ⊆ vars) (failed : e.eval left = .error failure) :
    failure.Own := by
  have renamed := self_renamed fits inside
  rw [e.eval_renamed shared.placed_left renamed] at failed
  exact e.eval_own shared.placed_left renamed failed

theorem evalCondition {e : Expr} (shared : Shared symbols vars left right)
    (fits : e.Fits symbols reads) (inside : reads ⊆ vars) :
    e.evalCondition right = e.evalCondition left := by
  rw [Expr.evalCondition, Expr.evalCondition, shared.eval fits inside]

theorem evalCondition_own {e : Expr} {failure : Failure} (shared : Shared symbols vars left right)
    (fits : e.Fits symbols reads) (inside : reads ⊆ vars)
    (failed : e.evalCondition left = .error failure) : failure.Own := by
  rcases failed_bind failed with inner | ⟨v, _, test⟩
  · exact shared.eval_own fits inside inner
  · exact Expr.truth_own test

end Shared

/-- Two runs of one statement from environments that share some variables. -/
structure SharedAfter (symbols : Symbols) (vars : List VarId)
    (first second : Except Failure Unit × Session) : Prop where
  result : second.1 = first.1
  own : ∀ failure, first.1 = .error failure → failure.Own
  shared : first.1 = .ok () → Shared symbols vars first.2.env second.2.env
  openLeft : first.2.env ≠ []
  openRight : second.2.env ≠ []

/-- A statement runs alike where all that it reads is shared, and what it declares is shared
behind it. -/
theorem Shared.exec {symbols : Symbols} {vars : List VarId} {left right : Session} {s : Stmt}
    {site : Site} (shared : Shared symbols vars left.env right.env) (sound : symbols.Sound)
    (openLeft : left.env ≠ []) (openRight : right.env ≠ []) (fits : s.Fits symbols site)
    (reads : site.reads ⊆ vars) (older : ∀ var : Nat, var ∈ vars → var < site.first) :
    SharedAfter symbols (site.declares.toList ++ vars) (s.exec left) (s.exec right) := by
  obtain ⟨source, outer, inner, renamed⟩ := fits.renamed
  have self : s.Renamed false [] (Naming.same (names symbols vars)) s := by
    refine Stmt.Renamed.self (names symbols vars) [] source renamed ?_ ?_
    · intro name referred
      obtain ⟨var, listed, named⟩ := fits.covered name referred
      rw [List.flatten_singleton]
      exact mem_names.mpr ⟨var, reads listed, named⟩
    · intro name declared known
      rw [List.flatten_singleton] at known
      obtain ⟨var, listed, named⟩ := mem_names.mp known
      obtain ⟨other, newer, named'⟩ := fits.bound name declared
      have same := named.unique sound named'
      have earlier := older var listed
      have apart : ∀ a b : Nat, a < site.first → site.first ≤ b → a ≠ b := by omega
      exact apart var other earlier newer same
  have pairedLeft : Paired false [Naming.same (names symbols vars)]
      { env := common symbols vars left.env } left :=
    ⟨shared.placed_left, openLeft, fun impossible => by cases impossible⟩
  have pairedRight : Paired false [Naming.same (names symbols vars)]
      { env := common symbols vars left.env } right :=
    ⟨shared.placed_right, openRight, fun impossible => by cases impossible⟩
  obtain ⟨naming, twin, named⟩ := s.exec_twin_after self pairedLeft
  obtain ⟨naming', twin', named'⟩ := s.exec_twin_after self pairedRight
  have result : (s.exec right).1 = (s.exec left).1 := twin'.result.trans twin.result.symm
  refine ⟨result, fun failure failed => twin.own failure (twin.result ▸ failed), fun done => ?_,
    twin.open_, twin'.open_⟩
  have finished := twin.result.symm.trans done
  obtain rfl := named (.inl finished)
  obtain rfl := named' (.inl finished)
  rw [Naming.after_same] at twin twin'
  refine of_placed twin.placed twin'.placed fun var member => ?_
  have known : ∀ name, Named symbols var name → name ∈ names symbols vars ++ s.declared?.toList →
      ∃ name, Named symbols var name ∧
        (Naming.same (names symbols vars ++ s.declared?.toList)).lookup name = some name := by
    intro name named present
    refine ⟨name, named, ?_⟩
    rw [Naming.lookup_same, if_pos present]
  rcases List.mem_append.mp member with new | old
  · rcases fits.declares with ⟨_, none_⟩ | ⟨made, name, declared, makes, named⟩
    · rw [none_] at new
      cases new
    · have same : var = made := by
        rw [makes] at new
        exact List.mem_singleton.mp new
      exact known name (same ▸ named) (List.mem_append_right _ (by simp [declared]))
  · obtain ⟨info, _, present, _⟩ := shared var old
    exact known info.localName ⟨info, present, rfl⟩
      (List.mem_append_left _ (mem_names.mpr ⟨var, old, info, present, rfl⟩))

end Resumable
