import Mathlib.Data.List.Sort
import Resumable.Region.Persistence

/-! The order in which variables are stored. Leaving some out keeps the order of the others. -/

namespace Resumable.Variable

theorem writtenBefore_iff {a b : Variable} : a.writtenBefore b = true ↔
    a.slot.stack.rank < b.slot.stack.rank ∨ a.slot.stack.rank = b.slot.stack.rank ∧
      (a.slot.index < b.slot.index ∨
        a.slot.index = b.slot.index ∧ @LE.le Nat _ a.id b.id) := by
  have stack : a.slot.stack = b.slot.stack ↔ a.slot.stack.rank = b.slot.stack.rank := by
    cases a.slot.stack <;> cases b.slot.stack <;> decide
  have slot : a.slot = b.slot ↔
      a.slot.stack.rank = b.slot.stack.rank ∧ a.slot.index = b.slot.index := by
    rw [← stack]
    cases a.slot
    cases b.slot
    exact Slot.mk.injEq .. ▸ Iff.rfl
  simp only [writtenBefore, Slot.before, Bool.or_eq_true, Bool.and_eq_true, decide_eq_true_eq, slot,
    stack]
  tauto

instance : IsTrans Variable (fun a b => a.writtenBefore b = true) where
  trans a b c first second := by
    rw [writtenBefore_iff] at first second ⊢
    omega

instance : Std.Total (fun (a b : Variable) => a.writtenBefore b = true) where
  total a b := by
    rw [writtenBefore_iff, writtenBefore_iff]
    omega

theorem sortBySlot_eq (vars : List Variable) :
    sortBySlot vars = vars.insertionSort fun a b => a.writtenBefore b = true := by
  have insert (var : Variable) (vars : List Variable) :
      insertInto var vars = vars.orderedInsert (fun a b => a.writtenBefore b = true) var := by
    induction vars with
    | nil => rfl
    | cons head rest ih => rw [insertInto, List.orderedInsert_cons, ih]
  induction vars with
  | nil => rfl
  | cons head rest ih =>
      rw [List.insertionSort_cons, ← ih, ← insert]
      rfl

theorem mem_sortBySlot {var : Variable} {vars : List Variable} :
    var ∈ sortBySlot vars ↔ var ∈ vars := by
  rw [sortBySlot_eq, List.mem_insertionSort]

theorem sorted_sortBySlot (vars : List Variable) :
    (sortBySlot vars).Pairwise fun a b => a.writtenBefore b = true := by
  rw [sortBySlot_eq]
  exact List.pairwise_insertionSort _ vars

theorem insertInto_first {var : Variable} {vars : List Variable}
    (first : ∀ other ∈ vars, var.writtenBefore other = true) :
    insertInto var vars = var :: vars := by
  cases vars with
  | nil => rfl
  | cons head rest => rw [insertInto, if_pos (first head List.mem_cons_self)]

theorem filter_insertInto (var : Variable) {vars : List Variable} (keep : Variable → Bool)
    (sorted : vars.Pairwise fun a b => a.writtenBefore b = true) :
    (insertInto var vars).filter keep =
      if keep var then insertInto var (vars.filter keep) else vars.filter keep := by
  induction vars with
  | nil => cases kept : keep var <;> simp [insertInto, kept]
  | cons head rest ih =>
      obtain ⟨below, sorted⟩ := List.pairwise_cons.mp sorted
      by_cases first : var.writtenBefore head = true
      · have ahead : ∀ other ∈ (head :: rest).filter keep, var.writtenBefore other = true := by
          intro other member
          rcases List.mem_cons.mp (List.mem_of_mem_filter member) with rfl | member
          · exact first
          · exact IsTrans.trans (r := fun (a b : Variable) => a.writtenBefore b = true) _ _ _ first
              (below other member)
        rw [insertInto, if_pos first, insertInto_first ahead, List.filter_cons]
      · rw [insertInto, if_neg first, List.filter_cons, List.filter_cons, ih sorted]
        cases keep head with
        | false => rfl
        | true =>
            cases keep var with
            | false => rfl
            | true => exact (if_neg first).symm

theorem filter_sortBySlot (keep : Variable → Bool) (vars : List Variable) :
    (sortBySlot vars).filter keep = sortBySlot (vars.filter keep) := by
  induction vars with
  | nil => rfl
  | cons head rest ih =>
      have insert := filter_insertInto head keep (sorted_sortBySlot rest)
      rw [show sortBySlot (head :: rest) = insertInto head (sortBySlot rest) from rfl, insert, ih,
        List.filter_cons]
      cases keep head <;> rfl

end Resumable.Variable
