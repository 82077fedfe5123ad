import Resumable.Ids

/-! Finite sets of variables, kept as ascending lists. -/

namespace Resumable

/-- Two sets with the same members have the same list. -/
structure VarSet where
  elems : List VarId := []
  ascending : elems.Pairwise (· < ·) := by simp

namespace VarSet

def insertInto (var : VarId) : List VarId → List VarId
  | [] => [var]
  | head :: rest =>
    if var < head then var :: head :: rest
    else if var = head then head :: rest
    else head :: insertInto var rest

theorem mem_insertInto {var x : VarId} {elems : List VarId} :
    x ∈ insertInto var elems ↔ x = var ∨ x ∈ elems := by
  induction elems with
  | nil => simp [insertInto]
  | cons head rest ih =>
    rw [insertInto]
    split
    · simp
    · split
      · rename_i same
        simp [same]
      · simp [ih, or_left_comm]

theorem ascending_insertInto {var : VarId} {elems : List VarId}
    (ascending : elems.Pairwise (· < ·)) : (insertInto var elems).Pairwise (· < ·) := by
  induction elems with
  | nil => simp [insertInto]
  | cons head rest ih =>
    have ⟨below, tail⟩ := List.pairwise_cons.mp ascending
    rw [insertInto]
    split
    · rename_i less
      refine List.pairwise_cons.mpr ⟨?_, ascending⟩
      intro x member
      rcases List.mem_cons.mp member with rfl | member
      · exact less
      · exact Nat.lt_trans less (below x member)
    · rename_i notLess
      split
      · exact ascending
      · rename_i distinct
        refine List.pairwise_cons.mpr ⟨?_, ih tail⟩
        intro x member
        rcases mem_insertInto.mp member with rfl | member
        · exact Nat.lt_of_le_of_ne (Nat.le_of_not_lt notLess) (Ne.symm distinct)
        · exact below x member

def contains (set : VarSet) (var : VarId) : Bool := set.elems.contains var

instance : Membership VarId VarSet := ⟨fun set var => var ∈ set.elems⟩

theorem mem_iff {set : VarSet} {var : VarId} : var ∈ set ↔ var ∈ set.elems := Iff.rfl

@[simp] theorem contains_iff {set : VarSet} {var : VarId} :
    set.contains var = true ↔ var ∈ set := by
  simp [contains, mem_iff]

instance (set : VarSet) (var : VarId) : Decidable (var ∈ set) :=
  inferInstanceAs (Decidable (var ∈ set.elems))

def empty : VarSet := {}

def size (set : VarSet) : Nat := set.elems.length

def insert (set : VarSet) (var : VarId) : VarSet :=
  ⟨insertInto var set.elems, ascending_insertInto set.ascending⟩

@[simp] theorem mem_insert {set : VarSet} {var x : VarId} :
    x ∈ set.insert var ↔ x = var ∨ x ∈ set :=
  mem_insertInto

def addAll (set : VarSet) (vars : List VarId) : VarSet := vars.foldl insert set

@[simp] theorem mem_addAll {set : VarSet} {vars : List VarId} {x : VarId} :
    x ∈ set.addAll vars ↔ x ∈ set ∨ x ∈ vars := by
  induction vars generalizing set with
  | nil => simp [addAll]
  | cons head rest ih =>
    have step := @ih (set.insert head)
    simp only [addAll, List.foldl_cons] at step ⊢
    simp [step, or_assoc, or_left_comm]

def ofList (vars : List VarId) : VarSet := empty.addAll vars

@[simp] theorem mem_ofList {vars : List VarId} {x : VarId} : x ∈ ofList vars ↔ x ∈ vars := by
  have none : ¬ x ∈ empty := by simp [empty, mem_iff]
  simp [ofList, none]

def union (a b : VarSet) : VarSet := a.addAll b.elems

@[simp] theorem mem_union {a b : VarSet} {x : VarId} : x ∈ a.union b ↔ x ∈ a ∨ x ∈ b := by
  have inside : x ∈ b ↔ x ∈ b.elems := mem_iff
  simp [union, inside]

def diff (a b : VarSet) : VarSet :=
  ⟨a.elems.filter fun var => !b.contains var, a.ascending.filter _⟩

@[simp] theorem mem_diff {a b : VarSet} {x : VarId} : x ∈ a.diff b ↔ x ∈ a ∧ x ∉ b := by
  simp [mem_iff, diff, contains]

def unionAll (sets : List VarSet) : VarSet := sets.foldl union empty

end VarSet
end Resumable
