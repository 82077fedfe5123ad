import Mathlib.Data.List.Forall2
import Resumable.Diagnostic.Fault

/-! Sequences of steps that can fail. -/

namespace Resumable

variable {α β : Type} {x : Except Failure α} {f : α → Except Failure β} {b : β}
  {failure : Failure}

theorem failed_bind (failed : (x >>= f) = .error failure) :
    x = .error failure ∨ ∃ a, x = .ok a ∧ f a = .error failure := by
  cases x with
  | error found =>
      cases failed
      exact .inl rfl
  | ok a => exact .inr ⟨a, rfl, failed⟩

theorem ok_bind (done : (x >>= f) = .ok b) : ∃ a, x = .ok a ∧ f a = .ok b := by
  cases x with
  | error found => cases done
  | ok a => exact ⟨a, rfl, done⟩

theorem mapM_eq {make : α → Except Failure β} {xs : List α} {ys : List β}
    (each : List.Forall₂ (fun x y => make x = .ok y) xs ys) : xs.mapM make = .ok ys := by
  induction each with
  | nil => rfl
  | cons first _ ih =>
      rw [List.mapM_cons, first, ih]
      rfl

theorem forall₂_left {R : α → β → Prop} {xs : List α} {ys : List β} (all : List.Forall₂ R xs ys)
    {x : α} (member : x ∈ xs) : ∃ y ∈ ys, R x y := by
  induction all with
  | nil => cases member
  | cons head _ ih =>
      rcases List.mem_cons.mp member with rfl | later
      · exact ⟨_, List.mem_cons_self, head⟩
      · obtain ⟨y, there, related⟩ := ih later
        exact ⟨y, List.mem_cons_of_mem _ there, related⟩

theorem forall₂_right {R : α → β → Prop} {xs : List α} {ys : List β} (all : List.Forall₂ R xs ys)
    {y : β} (member : y ∈ ys) : ∃ x ∈ xs, R x y :=
  forall₂_left all.flip member

section State

variable {σ : Type} {run : StateT σ (Except Failure) α} {next : α → StateT σ (Except Failure) β}
  {first last : σ}

theorem bind_ok (done : (run >>= next) first = .ok (b, last)) :
    ∃ a middle, run first = .ok (a, middle) ∧ next a middle = .ok (b, last) := by
  obtain ⟨⟨a, middle⟩, left, right⟩ := ok_bind done
  exact ⟨a, middle, left, right⟩

theorem pure_ok {a a' : α}
    (done : (pure a : StateT σ (Except Failure) α) first = .ok (a', last)) :
    a' = a ∧ last = first := by
  cases done
  exact ⟨rfl, rfl⟩

theorem lift_ok {check : Except Failure α} {a : α}
    (done : (liftM check : StateT σ (Except Failure) α) first = .ok (a, last)) :
    check = .ok a ∧ last = first := by
  cases check with
  | error => cases done
  | ok => cases done; exact ⟨rfl, rfl⟩

theorem check_ok {check : Except Failure α}
    (done : ((liftM check : StateT σ (Except Failure) α) >>= next) first = .ok (b, last)) :
    ∃ a, check = .ok a ∧ next a first = .ok (b, last) := by
  obtain ⟨a, middle, checked, rest⟩ := bind_ok done
  obtain ⟨passed, rfl⟩ := lift_ok checked
  exact ⟨a, passed, rest⟩

theorem bind_eq {a : α} {middle : σ} (done : run first = .ok (a, middle)) :
    (run >>= next) first = next a middle := by
  change (run first >>= fun pair => next pair.1 pair.2) = _
  rw [done]
  rfl

theorem bind_error {failure : Failure} (failed : run first = .error failure) :
    (run >>= next) first = .error failure := by
  change (run first >>= fun pair => next pair.1 pair.2) = _
  rw [failed]
  rfl

theorem check_eq {check : Except Failure α} {a : α} (passed : check = .ok a) :
    ((liftM check : StateT σ (Except Failure) α) >>= next) first = next a first := by
  subst passed
  rfl

end State
end Resumable
