import Resumable.Proofs.Eval.Twin

/-! The values that a run gives to variables, each with the type that the variable was declared
with. Where all of them fit, a run of the renamed tree has only values that fit in its environment.
-/

namespace Resumable

/-- A value that is given to a variable, with the type of the variable. -/
structure Binding where
  type : DataType
  value : Value

def Binding.Typed (binding : Binding) : Prop := binding.value.hasType binding.type = true

/-- The types that the names in scope were declared with. -/
abbrev Typing := String → Option DataType

namespace Typing

def after (typing : Typing) : Stmt → Typing
  | .declare name type .. => Function.update typing name (some type)
  | _ => typing

def bind (type : Option DataType) (value : Except Failure Value) : List Binding :=
  match type, value with
  | some type, .ok value => [⟨type, value⟩]
  | _, _ => []

end Typing

namespace Exec

def loopBindings (condition : Expr) (body : Exec Unit) (bindings : Session → List Binding) :
    Nat → Session → List Binding
  | 0, _ => []
  | rounds + 1, session =>
    match condition.evalCondition session.env with
    | .ok true =>
      bindings { session with env := session.env.push } ++
        match inScope body session with
        | (.ok _, after) => loopBindings condition body bindings rounds after
        | (.error _, _) => []
    | _ => []

end Exec

mutual

/-- What a statement binds when it is run from a session. -/
def Stmt.bindings (typing : Typing) : Stmt → Session → List Binding
  | .declare _ type _ value _, session => Typing.bind (some type) (value.eval session.env)
  | .assign target value _, session => Typing.bind (typing target) (value.eval session.env)
  | .evaluate .., _ => []
  | .branch condition thenBranch none _, session =>
    match condition.evalCondition session.env with
    | .ok true => thenBranch.bindings typing { session with env := session.env.push }
    | _ => []
  | .branch condition thenBranch (some elseBranch) _, session =>
    match condition.evalCondition session.env with
    | .ok true => thenBranch.bindings typing { session with env := session.env.push }
    | .ok false => elseBranch.bindings typing { session with env := session.env.push }
    | .error _ => []
  | .block body _, session =>
    Stmt.allBindings typing body { session with env := session.env.push }
  | .loop condition body _, session =>
    Exec.loopBindings condition body.exec (body.bindings typing) Exec.loopLimit session
  | .select scrutinee arms _, session =>
    match scrutinee.eval session.env with
    | .ok value => Arm.bindings typing value arms session
    | .error _ => []
  | .attempt body handler _, session =>
    body.bindings typing { session with env := session.env.push } ++
      match Exec.inScope body.exec session with
      | (.ok _, _) => []
      | (.error _, after) => handler.bindings typing
          { after with env := (after.env.keepOuter session.env.length).push }

def Stmt.allBindings (typing : Typing) : List Stmt → Session → List Binding
  | [], _ => []
  | s :: rest, session =>
    s.bindings typing session ++
      match s.exec session with
      | (.ok _, after) => Stmt.allBindings (typing.after s) rest after
      | (.error _, _) => []

def Arm.bindings (typing : Typing) (scrutinee : Value) : List Arm → Session → List Binding
  | [], _ => []
  | .mk none body :: _, session =>
    body.bindings typing { session with env := session.env.push }
  | .mk (some pattern) body :: rest, session =>
    match pattern.eval session.env with
    | .ok value =>
      if value.equal scrutinee then body.bindings typing { session with env := session.env.push }
      else Arm.bindings typing scrutinee rest session
    | .error _ => []

end

/-- What a function starts with when it is run as it is: its arguments, and nothing handed out. -/
def Function.entry (function : Function) (args : List Value) : Session :=
  { env := defineAll .initial (function.params.map Parameter.name) args, yields := some [] }

def Parameter.typing (params : List Parameter) : Typing := fun name =>
  (params.find? fun param => param.name = name).map Parameter.type

def Function.bindings (function : Function) (args : List Value) : List Binding :=
  function.body.bindings (Parameter.typing function.params) (function.entry args)

def Env.All (fits : String → Value → Prop) (env : Env) : Prop :=
  ∀ scope ∈ env, ∀ entry ∈ scope, fits entry.1 entry.2

namespace Env

variable {fits : String → Value → Prop} {env after : Env} {name : String} {value : Value}

theorem mem_bind {scope : List (String × Value)} {entry : String × Value}
    (present : entry ∈ bind name value scope) : entry = (name, value) ∨ entry ∈ scope := by
  induction scope with
  | nil => exact .inl (List.mem_singleton.mp present)
  | cons head rest ih =>
      rw [bind] at present
      split at present
      · exact (List.mem_cons.mp present).imp_right (List.mem_cons_of_mem _)
      · rcases List.mem_cons.mp present with rfl | behind
        · exact .inr List.mem_cons_self
        · exact (ih behind).imp_right (List.mem_cons_of_mem _)

namespace All

theorem push (all : env.All fits) : env.push.All fits := by
  intro scope present
  rcases List.mem_cons.mp present with rfl | outer
  · exact fun _ impossible => by cases impossible
  · exact all scope outer

theorem of_subset {few : Env} (all : env.All fits) (subset : few ⊆ env) : few.All fits :=
  fun scope present => all scope (subset present)

theorem pop (all : env.All fits) : env.pop.All fits := by
  refine all.of_subset ?_
  match env with
  | [] | [_] => exact List.Subset.refl _
  | _ :: _ :: _ => exact List.subset_cons_self _ _

theorem bind {scope : List (String × Value)} {rest : Env} (all : Env.All fits (scope :: rest))
    (may : fits name value) : Env.All fits (Env.bind name value scope :: rest) := by
  intro other present entry inside
  rcases List.mem_cons.mp present with rfl | outer
  · rcases mem_bind inside with rfl | old
    · exact may
    · exact all scope List.mem_cons_self entry old
  · exact all other (List.mem_cons_of_mem _ outer) entry inside

theorem define (all : env.All fits) (may : fits name value) : (env.define name value).All fits := by
  cases env with
  | nil => exact all
  | cons scope rest => exact all.bind may

theorem assign? (all : env.All fits) (may : fits name value)
    (assigned : env.assign? name value = some after) : after.All fits := by
  induction env generalizing after with
  | nil => cases assigned
  | cons scope rest ih =>
      rw [Env.assign?] at assigned
      split at assigned
      · cases assigned
        exact all.bind may
      · obtain ⟨inner, deeper, rfl⟩ := Option.map_eq_some_iff.mp assigned
        have further := ih (all.of_subset (List.subset_cons_self _ _)) deeper
        intro other present
        rcases List.mem_cons.mp present with rfl | outer
        · exact all other List.mem_cons_self
        · exact further other outer

theorem get? (all : env.All fits) (found : env.get? name = some value) : fits name value := by
  induction env with
  | nil => cases found
  | cons scope rest ih =>
      rw [Env.get?] at found
      cases here : scope.lookup name with
      | none =>
          rw [here, Option.none_or] at found
          exact ih (all.of_subset (List.subset_cons_self _ _)) found
      | some old =>
          rw [here, Option.some_or, Option.some.injEq] at found
          subst found
          obtain ⟨before, behind, rfl, _⟩ := List.lookup_eq_some_iff.mp here
          exact all _ List.mem_cons_self (name, old) (by simp)

end All
end Env

/-- The values of a declared type are ones that the declared name may have. -/
def Admits (fits : String → Value → Prop) (made : String × DataType) : Prop :=
  ∀ value, Value.hasType value made.2 = true → fits made.1 value

def Typing.Covers (fits : String → Value → Prop) (typing : Typing) (namings : List Naming) : Prop :=
  ∀ name localName, Naming.find? name namings = some localName → ∃ type,
    typing name = some type ∧ Admits fits (localName, type)

namespace Typing.Covers

variable {fits : String → Value → Prop} {typing : Typing} {namings outer : List Naming}
  {inner : Naming}

theorem push (covers : typing.Covers fits namings) : typing.Covers fits ([] :: namings) := covers

theorem after {loud : Bool} {s s' : Stmt} (covers : typing.Covers fits (inner :: outer))
    (renamed : s.Renamed loud outer inner s') (makes : ∀ made ∈ s'.declarations, Admits fits made) :
    (typing.after s).Covers fits (inner.after s s' :: outer) := by
  cases s with
  | declare name type mutable value location =>
      obtain ⟨localName, value', _, new, _, rfl⟩ := renamed
      intro other found there
      rw [Naming.after, Naming.find?, Naming.lookup_append_single new] at there
      rw [Typing.after, Function.update_apply]
      by_cases same : other = name
      · rw [if_pos same, Option.some_or, Option.some.injEq] at there
        subst there
        exact ⟨type, if_pos same, makes _ (List.mem_singleton.mpr rfl)⟩
      · rw [if_neg same] at there ⊢
        exact covers other found there
  | _ => exact covers

end Typing.Covers

section Fitting

variable {fits : String → Value → Prop} {typing : Typing} {loud : Bool} {namings : List Naming}
  {source target : Session} {made changed : List String} {bindings bindings' : Session → List Binding}
  {code code' handler handler' : Exec Unit}

/-- Code that keeps the values that fit, in a scope of its own, where its source binds such. -/
def Exec.Fitting (fits : String → Value → Prop) (loud : Bool) (namings : List Naming)
    (bindings : Session → List Binding) (code' : Exec Unit) : Prop :=
  ∀ source target, Paired loud ([] :: namings) source target →
    (∀ binding ∈ bindings source, binding.Typed) → target.env.All fits →
      (code' target).2.env.All fits

namespace Exec

theorem inScope_fits (fitting : Fitting fits loud namings bindings code')
    (paired : Paired loud namings source target)
    (typed : ∀ binding ∈ bindings { source with env := source.env.push }, binding.Typed)
    (all : target.env.All fits) : (inScope code' target).2.env.All fits := by
  rw [inScope_apply]
  exact (fitting _ _ paired.push typed all.push).pop

theorem loop_fits {condition condition' : Expr} (location : Location) (some_ : namings ≠ [])
    (test : condition.Renamed namings condition') (alike : Alike false namings code code')
    (fitting : Fitting fits false namings bindings code') (inner : Inner made changed code')
    (fresh : ∀ name ∈ made, name ∉ Naming.locals namings) (rounds : Nat)
    (paired : Paired false namings source target)
    (typed : ∀ binding ∈ loopBindings condition code bindings rounds source, binding.Typed)
    (all : target.env.All fits) :
    (loop (Exec.condition condition') code' location rounds target).2.env.All fits := by
  induction rounds generalizing source target with
  | zero =>
      rw [loop_zero_apply, condition_apply]
      rcases condition'.evalCondition target.env with _ | _ | _ <;> exact all
  | succ rounds ih =>
      rw [loop_succ_apply, condition_apply, Expr.evalCondition_renamed paired.placed test]
      rw [loopBindings] at typed
      rcases tested : condition.evalCondition source.env with failure | _ | _
      · exact all
      · exact all
      · simp only [tested, List.forall_mem_append] at typed
        obtain ⟨first, further⟩ := typed
        have round := inScope_twin some_ alike inner fresh paired
        have kept := inScope_fits fitting paired first all
        obtain ⟨failure, middle, middle', left, right⟩ | ⟨middle, middle', left, right⟩ :=
          round.ends <;> rw [left, right] at round <;> rw [right] at kept <;>
            rw [left] at further <;> simp only [right]
        · exact kept
        · exact ih (round.paired paired.heard) further kept

theorem recover_fits (some_ : namings ≠ []) (alike : Alike false namings code code')
    (fitting : Fitting fits false namings bindings code')
    (fitting' : Fitting fits false namings bindings' handler') (inner : Inner made changed code')
    (fresh : ∀ name ∈ made, name ∉ Naming.locals namings)
    (paired : Paired false namings source target)
    (typed : ∀ binding ∈ bindings { source with env := source.env.push } ++
      (match inScope code source with
      | (.ok _, _) => []
      | (.error _, after) =>
        bindings' { after with env := (after.env.keepOuter source.env.length).push }),
      binding.Typed) (all : target.env.All fits) :
    (recover code' handler' target).2.env.All fits := by
  obtain ⟨first, further⟩ := List.forall_mem_append.mp typed
  have round := inScope_twin some_ alike inner fresh paired
  have lengths := inScope_lengths some_ alike inner fresh paired
  have all' := inScope_fits fitting paired first all
  rw [recover_apply]
  obtain ⟨failure, middle, middle', left, right⟩ | ⟨middle, middle', left, right⟩ := round.ends <;>
    rw [left, right] at round lengths <;> rw [right] at all' ⊢ <;> rw [left] at further
  · simp only [Env.keepOuter_length lengths.1] at further
    simp only [Env.keepOuter_length lengths.2]
    exact inScope_fits fitting' (round.paired paired.heard) further all'
  · exact all'

end Exec
end Fitting

mutual

/-- What is bound in the renamed tree is what is bound in its source. -/
theorem Stmt.exec_fits (s : Stmt) {s' : Stmt} {fits : String → Value → Prop} {typing : Typing}
    {loud : Bool} {outer : List Naming} {inner : Naming} {source target : Session}
    (renamed : s.Renamed loud outer inner s') (paired : Paired loud (inner :: outer) source target)
    (covers : typing.Covers fits (inner :: outer))
    (makes : ∀ made ∈ s'.declarations, Admits fits made)
    (typed : ∀ binding ∈ s.bindings typing source, binding.Typed) (all : target.env.All fits) :
    (s'.exec target).2.env.All fits := by
  have some_ : inner :: outer ≠ [] := List.cons_ne_nil _ _
  have fresh := Stmt.Renamed.bound_fresh s renamed
  match s with
  | .declare name type mutable value location =>
      obtain ⟨localName, value', inValue, _, _, rfl⟩ := renamed
      rw [Stmt.bindings] at typed
      rw [Stmt.exec_declare, value.eval_renamed paired.placed inValue]
      cases evaluated : value.eval source.env with
      | error => exact all
      | ok v =>
          rw [evaluated] at typed
          exact all.define (makes _ (List.mem_singleton.mpr rfl) v
            (typed _ (List.mem_singleton.mpr rfl)))
  | .assign name value location =>
      obtain ⟨localName, value', found, inValue, rfl⟩ := renamed
      obtain ⟨type, known, admits⟩ := covers name localName found
      rw [Stmt.bindings, known] at typed
      rw [Stmt.exec_assign, value.eval_renamed paired.placed inValue]
      cases evaluated : value.eval source.env with
      | error => exact all
      | ok v =>
          rw [evaluated] at typed
          have may := admits v (typed _ (List.mem_singleton.mpr rfl))
          dsimp only
          rw [Exec.assign_apply]
          cases assigned : target.env.assign? localName v with
          | none => exact all
          | some env => exact all.assign? may assigned
  | .evaluate value location =>
      obtain ⟨value', _, rfl⟩ | ⟨_, payload, mark, payload', _, _, rfl⟩ := renamed
      · rw [Stmt.exec_evaluate_env]
        exact all
      · rw [Stmt.exec_evaluate_env]
        exact all
  | .branch condition thenBranch none location =>
      obtain ⟨condition', thenBranch', inCondition, inThen, rfl⟩ := renamed
      rw [Stmt.bindings] at typed
      rw [Stmt.exec_branch_none, Expr.evalCondition_renamed paired.placed inCondition]
      rcases tested : condition.evalCondition source.env with failure | _ | _
      · exact all
      · exact all
      · rw [tested] at typed
        exact Exec.inScope_fits (fun _ _ paired typed all =>
          thenBranch.exec_fits inThen paired covers.push makes typed all) paired typed all
  | .branch condition thenBranch (some elseBranch) location =>
      obtain ⟨condition', thenBranch', elseBranch', inCondition, inThen, inElse, rfl⟩ := renamed
      obtain ⟨makesThen, makesElse⟩ := List.forall_mem_append.mp makes
      rw [Stmt.bindings] at typed
      rw [Stmt.exec_branch_some, Expr.evalCondition_renamed paired.placed inCondition]
      rcases tested : condition.evalCondition source.env with failure | _ | _
      · exact all
      · rw [tested] at typed
        exact Exec.inScope_fits (fun _ _ paired typed all =>
          elseBranch.exec_fits inElse paired covers.push makesElse typed all) paired typed all
      · rw [tested] at typed
        exact Exec.inScope_fits (fun _ _ paired typed all =>
          thenBranch.exec_fits inThen paired covers.push makesThen typed all) paired typed all
  | .block body location =>
      obtain ⟨body', inBody, rfl⟩ := renamed
      rw [Stmt.bindings] at typed
      rw [Stmt.exec_block]
      exact Exec.inScope_fits (fun _ _ paired typed all =>
        Stmt.execAll_fits body inBody paired covers.push makes typed all) paired typed all
  | .loop condition body location =>
      obtain ⟨condition', body', inCondition, inBody, rfl⟩ := renamed
      have round : Exec.Alike false (inner :: outer) body.exec body'.exec :=
        fun _ _ paired => (body.exec_twin_after inBody paired).alike
      rw [Stmt.bindings] at typed
      rw [Stmt.exec_loop]
      exact Exec.loop_fits location some_ inCondition round (fun _ _ paired typed all =>
        body.exec_fits inBody paired covers.push makes typed all) body'.exec_inner fresh
          Exec.loopLimit paired.quiet typed all
  | .select scrutinee arms location =>
      obtain ⟨scrutinee', arms', inScrutinee, inArms, rfl⟩ := renamed
      rw [Stmt.bindings] at typed
      rw [Stmt.exec_select, scrutinee.eval_renamed paired.placed inScrutinee]
      cases evaluated : scrutinee.eval source.env with
      | error => exact all
      | ok v =>
          rw [evaluated] at typed
          exact Arm.execFirst_fits v arms inArms paired.quiet covers makes typed all
  | .attempt body handler location =>
      obtain ⟨body', handler', inBody, inHandler, rfl⟩ := renamed
      obtain ⟨makesBody, makesHandler⟩ := List.forall_mem_append.mp makes
      have first : Exec.Alike false (inner :: outer) body.exec body'.exec :=
        fun _ _ paired => (body.exec_twin_after inBody paired).alike
      rw [Stmt.bindings] at typed
      rw [Stmt.exec_attempt]
      exact Exec.recover_fits some_ first (fun _ _ paired typed all =>
        body.exec_fits inBody paired covers.push makesBody typed all) (fun _ _ paired typed all =>
          handler.exec_fits inHandler paired covers.push makesHandler typed all) body'.exec_inner
            (fun name here => fresh name (List.mem_append_left _ here)) paired.quiet typed all

theorem Stmt.execAll_fits (body : List Stmt) {body' : List Stmt} {fits : String → Value → Prop}
    {typing : Typing} {loud : Bool} {outer : List Naming} {inner : Naming}
    {source target : Session} (renamed : Stmt.RenamedAll loud outer inner body body')
    (paired : Paired loud (inner :: outer) source target)
    (covers : typing.Covers fits (inner :: outer))
    (makes : ∀ made ∈ Stmt.allDeclarations body', Admits fits made)
    (typed : ∀ binding ∈ Stmt.allBindings typing body source, binding.Typed)
    (all : target.env.All fits) : (Stmt.execAll body' target).2.env.All fits := by
  match body with
  | [] =>
      have empty : body' = [] := renamed
      rw [empty]
      exact all
  | s :: rest =>
      obtain ⟨s', rest', first, others, rfl⟩ := renamed
      obtain ⟨makesFirst, makesRest⟩ := List.forall_mem_append.mp makes
      obtain ⟨typedFirst, typedRest⟩ := List.forall_mem_append.mp typed
      have kept := s.exec_fits first paired covers makesFirst typedFirst all
      obtain ⟨naming, twin, reached⟩ := s.exec_twin_after first paired
      rw [Stmt.execAll_cons]
      obtain ⟨failure, middle, middle', left, right⟩ | ⟨middle, middle', left, right⟩ :=
        twin.ends <;> rw [left, right] at twin <;> rw [left] at typedRest reached <;>
          rw [right] at kept ⊢
      · exact kept
      · rw [reached (.inl rfl)] at twin
        exact Stmt.execAll_fits rest others (twin.paired paired.heard)
          (covers.after first makesFirst) makesRest typedRest kept

theorem Arm.execFirst_fits (scrutinee : Value) (arms : List Arm) {arms' : List Arm}
    {fits : String → Value → Prop} {typing : Typing} {namings : List Naming}
    {source target : Session} (renamed : Arm.RenamedAll namings arms arms')
    (paired : Paired false namings source target) (covers : typing.Covers fits namings)
    (makes : ∀ made ∈ Arm.allDeclarations arms', Admits fits made)
    (typed : ∀ binding ∈ Arm.bindings typing scrutinee arms source, binding.Typed)
    (all : target.env.All fits) : (Arm.execFirst scrutinee arms' target).2.env.All fits := by
  match arms with
  | [] =>
      have empty : arms' = [] := renamed
      rw [empty]
      exact all
  | .mk none body :: rest =>
      obtain ⟨body', rest', inBody, _, rfl⟩ := renamed
      obtain ⟨makesBody, _⟩ := List.forall_mem_append.mp makes
      rw [Arm.bindings] at typed
      rw [Arm.execFirst_none]
      exact Exec.inScope_fits (fun _ _ paired typed all =>
        body.exec_fits inBody paired covers.push makesBody typed all) paired typed all
  | .mk (some pattern) body :: rest =>
      obtain ⟨pattern', body', rest', inPattern, inBody, inRest, rfl⟩ := renamed
      obtain ⟨makesBody, makesRest⟩ := List.forall_mem_append.mp makes
      rw [Arm.bindings] at typed
      rw [Arm.execFirst_some, pattern.eval_renamed paired.placed inPattern]
      cases evaluated : pattern.eval source.env with
      | error => exact all
      | ok v =>
          rw [evaluated] at typed
          dsimp only at typed ⊢
          split at typed
          · rename_i chosen
            rw [if_pos chosen]
            exact Exec.inScope_fits (fun _ _ paired typed all =>
              body.exec_fits inBody paired covers.push makesBody typed all) paired typed all
          · rename_i other
            rw [if_neg other]
            exact Arm.execFirst_fits scrutinee rest inRest paired covers makesRest typed all

end

end Resumable
