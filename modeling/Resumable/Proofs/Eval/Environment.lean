import Mathlib.Data.List.Forall2
import Resumable.Eval.Environment

/-! How definitions and assignments change what names stand for, and what they keep. -/

namespace Resumable.Env

theorem lookup_cons (name head : String) (value : Value) (rest : List (String × Value)) :
    ((head, value) :: rest).lookup name =
      if name = head then some value else rest.lookup name := by
  by_cases same : name = head
  · simp [same]
  · have apart : (name == head) = false := by simp [same]
    simp [List.lookup_cons, apart, same]

theorem lookup_bind (name other : String) (value : Value) (scope : List (String × Value)) :
    (bind name value scope).lookup other =
      if other = name then some value else scope.lookup other := by
  induction scope with
  | nil => simp [bind, lookup_cons]
  | cons entry rest ih =>
      obtain ⟨head, old⟩ := entry
      by_cases found : head = name
      · by_cases same : other = name <;> simp [bind, lookup_cons, found, same]
      · by_cases first : other = head
        · have apart : other ≠ name := fun equal => found (first.symm.trans equal)
          simp [bind, found, first]
        · simp [bind, lookup_cons, found, first, ih]

theorem keys_bind_of_mem {name : String} {value : Value} {scope : List (String × Value)}
    (present : name ∈ scope.map Prod.fst) :
    (bind name value scope).map Prod.fst = scope.map Prod.fst := by
  induction scope with
  | nil => simp at present
  | cons entry rest ih =>
      obtain ⟨head, old⟩ := entry
      by_cases found : head = name
      · simp [bind, found]
      · have behind : name ∈ rest.map Prod.fst := by
          rcases List.mem_cons.mp present with same | behind
          · exact absurd same.symm found
          · exact behind
        simp only [bind, found, if_false, List.map_cons, ih behind]

theorem bind_of_not_mem {name : String} {value : Value} {scope : List (String × Value)}
    (absent : name ∉ scope.map Prod.fst) : bind name value scope = scope ++ [(name, value)] := by
  induction scope with
  | nil => rfl
  | cons entry rest ih =>
      obtain ⟨head, old⟩ := entry
      simp only [List.map_cons, List.mem_cons, not_or] at absent
      have apart : head ≠ name := fun same => absent.1 same.symm
      simp only [bind, apart, if_false, List.cons_append, ih absent.2]

theorem mem_keys_bind {name other : String} {value : Value} {scope : List (String × Value)} :
    other ∈ (bind name value scope).map Prod.fst ↔ other = name ∨ other ∈ scope.map Prod.fst := by
  by_cases present : name ∈ scope.map Prod.fst
  · rw [keys_bind_of_mem present]
    constructor
    · exact .inr
    · rintro (rfl | old)
      · exact present
      · exact old
  · rw [bind_of_not_mem present]
    simp [or_comm]

theorem lookup_isSome_iff {name : String} {scope : List (String × Value)} :
    (scope.lookup name).isSome ↔ name ∈ scope.map Prod.fst := by
  induction scope with
  | nil => simp
  | cons entry rest ih =>
      obtain ⟨head, old⟩ := entry
      by_cases found : name = head
      · simp [found]
      · rw [lookup_cons, if_neg found, ih]
        simp [found]

theorem lookup_eq_none_iff {name : String} {scope : List (String × Value)} :
    scope.lookup name = none ↔ name ∉ scope.map Prod.fst := by
  rw [← lookup_isSome_iff, Option.not_isSome_iff_eq_none]

theorem get?_cons_of_not_mem {name : String} {scope : List (String × Value)} {env : Env}
    (absent : name ∉ scope.map Prod.fst) : get? name (scope :: env) = get? name env := by
  simp [get?, lookup_eq_none_iff.mpr absent]

theorem get?_define {name other : String} {value : Value} {env : Env} (open_ : env ≠ []) :
    get? other (define name value env) = if other = name then some value else get? other env := by
  cases env with
  | nil => exact absurd rfl open_
  | cons scope rest =>
      by_cases same : other = name <;> simp [define, get?, lookup_bind, same]

theorem define_ne_nil {name : String} {value : Value} {env : Env} (open_ : env ≠ []) :
    define name value env ≠ [] := by
  cases env with
  | nil => exact open_
  | cons scope rest => exact List.cons_ne_nil _ _

theorem assign?_isSome_iff {name : String} {value : Value} {env : Env} :
    (assign? name value env).isSome ↔ (get? name env).isSome := by
  induction env with
  | nil => simp [assign?, get?]
  | cons scope rest ih =>
      cases found : scope.lookup name with
      | none => simp [assign?, get?, found, ih]
      | some old => simp [assign?, get?, found]

theorem get?_assign? {name other : String} {value : Value} {env after : Env}
    (assigned : assign? name value env = some after) :
    get? other after = if other = name then some value else get? other env := by
  induction env generalizing after with
  | nil => simp [assign?] at assigned
  | cons scope rest ih =>
      cases found : scope.lookup name with
      | some old =>
          simp only [assign?, found, Option.isSome_some, if_true, Option.some.injEq] at assigned
          subst assigned
          by_cases same : other = name <;> simp [get?, lookup_bind, same]
      | none =>
          simp only [assign?, found, Option.isSome_none, Bool.false_eq_true, if_false,
            Option.map_eq_some_iff] at assigned
          obtain ⟨changed, inner, rfl⟩ := assigned
          by_cases same : other = name
          · subst same
            simp [get?, found, ih inner]
          · simp [get?, ih inner, same]

def names (env : Env) : List (List String) := env.map (·.map Prod.fst)

theorem names_define {name : String} {value : Value} {scope : List (String × Value)} {env : Env}
    (absent : name ∉ scope.map Prod.fst) :
    names (define name value (scope :: env)) = (scope.map Prod.fst ++ [name]) :: names env := by
  rw [define, bind_of_not_mem absent, names, List.map_cons, List.map_append]
  rfl

/-- Two environments with the same names, where only the listed ones may have other values. -/
def Kept (changed : List String) (before after : Env) : Prop :=
  List.Forall₂ (fun old new => new.map Prod.fst = old.map Prod.fst ∧
    ∀ name, name ∉ changed → new.lookup name = old.lookup name) before after

namespace Kept

theorem refl (changed : List String) (env : Env) : Kept changed env env := by
  induction env with
  | nil => exact .nil
  | cons scope rest ih => exact .cons ⟨rfl, fun _ _ => rfl⟩ ih

theorem mono {few many : List String} {before after : Env} (subset : few ⊆ many)
    (kept : Kept few before after) : Kept many before after := by
  induction kept with
  | nil => exact .nil
  | cons head _ ih => exact .cons ⟨head.1, fun name outside => head.2 name fun inside =>
      outside (subset inside)⟩ ih

theorem trans {changed : List String} {first second third : Env}
    (left : Kept changed first second) (right : Kept changed second third) :
    Kept changed first third := by
  induction left generalizing third with
  | nil => cases right; exact .nil
  | cons head _ ih =>
      cases right with
      | cons next rest => exact .cons ⟨next.1.trans head.1, fun name outside =>
          (next.2 name outside).trans (head.2 name outside)⟩ (ih rest)

theorem names_eq {changed : List String} {before after : Env} (kept : Kept changed before after) :
    after.names = before.names := by
  induction kept with
  | nil => rfl
  | cons head _ ih =>
      simp only [names, List.map_cons] at ih ⊢
      rw [head.1, ih]

theorem get?_eq {changed : List String} {before after : Env} (kept : Kept changed before after)
    {name : String} (outside : name ∉ changed) : get? name after = get? name before := by
  induction kept with
  | nil => rfl
  | cons head _ ih => simp only [get?, head.2 name outside, ih]

theorem assign? {name : String} {value : Value} {env after : Env}
    (assigned : Env.assign? name value env = some after) : Kept [name] env after := by
  induction env generalizing after with
  | nil => simp [Env.assign?] at assigned
  | cons scope rest ih =>
      cases found : scope.lookup name with
      | some old =>
          simp only [Env.assign?, found, Option.isSome_some, if_true,
            Option.some.injEq] at assigned
          subst assigned
          have present : name ∈ scope.map Prod.fst := lookup_isSome_iff.mp (by simp [found])
          refine .cons ⟨keys_bind_of_mem present, ?_⟩ (refl _ _)
          intro other outside
          have apart : other ≠ name := by simpa using outside
          simp [lookup_bind, apart]
      | none =>
          simp only [Env.assign?, found, Option.isSome_none, Bool.false_eq_true, if_false,
            Option.map_eq_some_iff] at assigned
          obtain ⟨changed, inner, rfl⟩ := assigned
          exact .cons ⟨rfl, fun _ _ => rfl⟩ (ih inner)

end Kept
end Resumable.Env
