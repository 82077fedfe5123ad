import Resumable.Eval.Exec
import Resumable.Proofs.Eval.Environment

/-! Arguments that pass their check, and the environment that they are defined in. -/

namespace Resumable

variable {env : Env} {names : List String} {values args : List Value}

theorem checkArgs_ok {params : List (String × DataType)} (passed : checkArgs params args = .ok ()) :
    List.Forall₂ (fun param arg => Value.hasType arg param.2 = true) params args := by
  rw [checkArgs] at passed
  split at passed
  · cases passed
  · rename_i same
    simp only [ne_eq, Decidable.not_not] at same
    split at passed
    · cases passed
    · rename_i none_
      refine List.forall₂_iff_zip.mpr ⟨same, fun {param arg} member => ?_⟩
      simpa using List.find?_eq_none.mp none_ (param, arg) member

theorem checkArgs_of_fits {params : List (String × DataType)}
    (fits : List.Forall₂ (fun param arg => Value.hasType arg param.2 = true) params args) :
    checkArgs params args = .ok () := by
  obtain ⟨same, each⟩ := List.forall₂_iff_zip.mp fits
  rw [checkArgs, if_neg (not_not_intro same)]
  split
  · rename_i param arg found
    have refused := List.find?_some found
    simp [each (List.mem_of_find?_eq_some found)] at refused
  · rfl

theorem defineAll_ne_nil (open_ : env ≠ []) (names : List String) (values : List Value) :
    defineAll env names values ≠ [] := by
  induction names generalizing env values with
  | nil => exact open_
  | cons name rest ih =>
      cases values with
      | nil => exact open_
      | cons value others => exact ih (Env.define_ne_nil open_) others

theorem get?_defineAll_of_not_mem {name : String} (open_ : env ≠ []) (absent : name ∉ names) :
    (defineAll env names values).get? name = env.get? name := by
  induction names generalizing env values with
  | nil => rfl
  | cons first rest ih =>
      obtain ⟨apart, outside⟩ := not_or.mp (mt List.mem_cons.mpr absent)
      cases values with
      | nil => rfl
      | cons value others =>
          refine (@ih _ others (Env.define_ne_nil open_) outside).trans ?_
          rw [Env.get?_define open_, if_neg apart]

theorem get?_defineAll (open_ : env ≠ []) (distinct : names.Nodup)
    (same : names.length = values.length) :
    List.Forall₂ (fun name value => (defineAll env names values).get? name = some value) names
      values := by
  induction names generalizing env values with
  | nil =>
      cases List.eq_nil_of_length_eq_zero same.symm
      exact .nil
  | cons name rest ih =>
      obtain ⟨fresh, others⟩ := List.nodup_cons.mp distinct
      cases values with
      | nil => cases same
      | cons value more =>
          refine .cons ?_ (ih (Env.define_ne_nil open_) others (Nat.succ.inj same))
          refine (get?_defineAll_of_not_mem (Env.define_ne_nil open_) fresh).trans ?_
          rw [Env.get?_define open_, if_pos rfl]

theorem names_defineAll {scope : List (String × Value)} (distinct : names.Nodup)
    (same : names.length = values.length) (fresh : ∀ name ∈ names, name ∉ scope.map Prod.fst) :
    (defineAll (scope :: env) names values).names = (scope.map Prod.fst ++ names) :: env.names := by
  induction names generalizing scope values with
  | nil =>
      rw [List.append_nil]
      rfl
  | cons name rest ih =>
      obtain ⟨outside, others⟩ := List.nodup_cons.mp distinct
      cases values with
      | nil => cases same
      | cons value more =>
          have absent := fresh name List.mem_cons_self
          have keys : (Env.bind name value scope).map Prod.fst = scope.map Prod.fst ++ [name] :=
            (List.cons.inj (@Env.names_define name value scope env absent)).1
          refine (@ih more (Env.bind name value scope) others (Nat.succ.inj same) ?_).trans ?_
          · intro other member present
            rw [keys] at present
            rcases List.mem_append.mp present with old | new
            · exact fresh other (List.mem_cons_of_mem _ member) old
            · exact outside (List.mem_singleton.mp new ▸ member)
          · rw [keys, List.append_assoc, List.singleton_append]

end Resumable
