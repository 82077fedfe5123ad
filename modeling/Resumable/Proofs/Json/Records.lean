import Mathlib.Data.List.Nodup
import Resumable.Json.Tree

/-! Records, variants and fields of JSON values read back, and what is read of small data. -/

namespace Resumable

open Json

section Lists

variable {α : Type} {write : α → Json} {read : Json → Option α} {x : α} {xs : List α}

theorem mapM_map (each : ∀ x ∈ xs, read (write x) = some x) :
    (xs.map write).mapM read = some xs := by
  induction xs with
  | nil => rfl
  | cons x xs ih =>
      rw [List.forall_mem_cons] at each
      simp [each.1, ih each.2]

theorem bareVariant?_name (name : α → String) (distinct : (xs.map name).Nodup) (member : x ∈ xs) :
    bareVariant? (xs.map fun x => (name x, x)) (.str (name x)) = some x := by
  show (xs.map fun x => (name x, x)).lookup (name x) = some x
  induction xs with
  | nil => cases member
  | cons y ys ih =>
      rw [List.map_cons, List.nodup_cons] at distinct
      rw [List.map_cons, List.lookup_cons]
      rcases List.mem_cons.mp member with rfl | later
      · simp
      · have other : name x ≠ name y := by
          intro same
          exact distinct.1 (same ▸ List.mem_map_of_mem later)
        rw [beq_false_of_ne other]
        exact ih distinct.2 later

theorem optional?_some {json : Json} (notNull : json ≠ .null) (readBack : read json = some x) :
    optional? read (some json) = some (some x) := by
  rw [optional?]
  · rw [readBack, Option.map_some]
  · exact notNull

theorem optional?_optionJson {value : Option α} (notNull : ∀ x, write x ≠ .null)
    (readBack : ∀ x, read (write x) = some x) :
    optional? read (some (optionJson write value)) = some value := by
  cases value with
  | none => rfl
  | some x => exact optional?_some (notNull x) (readBack x)

end Lists

namespace Json

theorem ne_null_of_depth {json : Json} (deep : 0 < json.depth) : json ≠ .null := by
  rintro rfl
  cases deep

theorem intIn?_int {least most n : Int} (above : least ≤ n) (below : n ≤ most) :
    (int n).intIn? least most = some n := by
  simp [intIn?, above, below]

variable {fields : List (String × Json)} {key : String} {json : Json}

theorem fieldOf_of_mem (distinct : (fields.map Prod.fst).Nodup) (member : (key, json) ∈ fields)
    (presence : Presence) : fieldOf fields key presence = some (some json) := by
  have only : fields.filter (·.1 = key) = [(key, json)] := by
    induction fields with
    | nil => cases member
    | cons field fields ih =>
        rw [List.map_cons, List.nodup_cons] at distinct
        rcases List.mem_cons.mp member with rfl | later
        · rw [List.filter_cons_of_pos (by simp), List.filter_eq_nil_iff.mpr]
          intro other behind
          rw [decide_eq_true_eq]
          rintro rfl
          exact distinct.1 (List.mem_map.mpr ⟨other, behind, rfl⟩)
        · have other : field.1 ≠ key := by
            rintro rfl
            exact distinct.1 (List.mem_map.mpr ⟨_, later, rfl⟩)
          rw [List.filter_cons_of_neg (by simpa using other)]
          exact ih distinct.2 later
  unfold fieldOf
  rw [only]

theorem mapM_fieldOf {shape : List (String × Presence)} {part : List (String × Json)}
    (distinct : (fields.map Prod.fst).Nodup) (sub : part ⊆ fields)
    (named : shape.map Prod.fst = part.map Prod.fst) :
    (shape.mapM fun (key, presence) => fieldOf fields key presence) =
      some (part.map fun field => some field.2) := by
  induction shape generalizing part with
  | nil =>
      rw [List.map_nil, eq_comm, List.map_eq_nil_iff] at named
      subst named
      rfl
  | cons entry shape ih =>
      cases part with
      | nil => cases named
      | cons field part =>
          obtain ⟨key, presence⟩ := entry
          obtain ⟨same, others⟩ := List.cons_eq_cons.mp named
          subst same
          have first := fieldOf_of_mem distinct (sub List.mem_cons_self) presence
          have rest := ih (fun _ member => sub (List.mem_cons_of_mem _ member)) others
          simp [List.mapM_cons, first, rest]

/-- A record's fields are found where they are all given, whether they could be left out or not. -/
theorem record?_obj {shape : List (String × Presence)}
    (named : shape.map Prod.fst = fields.map Prod.fst) (distinct : (fields.map Prod.fst).Nodup) :
    record? shape (.obj fields) = some (fields.map fun field => some field.2) :=
  mapM_fieldOf distinct (List.Subset.refl fields) named

end Json
end Resumable
