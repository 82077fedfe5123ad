import Resumable.Proofs.Eval.Erasure
import Resumable.Proofs.Program.Notes

/-! What is left of a tree when its type notes are removed: the whole tree but for its notes, and of
these only what the bodies of function literals hold. -/

namespace Resumable

mutual

/-- The bodies of the function literals in an expression, from left to right. A literal inside such a
body counts as a part of it. -/
def Expr.bodies : Expr → List Stmt
  | .literal .. => []
  | .reference .. => []
  | .binary _ left right _ => left.bodies ++ right.bodies
  | .unary _ operand _ => operand.bodies
  | .call _ args _ => Expr.allBodies args
  | .suspend payload _ => payload.bodies
  | .function _ _ body _ => [body]

def Expr.allBodies : List Expr → List Stmt
  | [] => []
  | e :: rest => e.bodies ++ Expr.allBodies rest

end

mutual

def Stmt.bodies : Stmt → List Stmt
  | .declare _ _ _ value _ => value.bodies
  | .assign _ value _ => value.bodies
  | .evaluate value _ => value.bodies
  | .branch condition thenBranch none _ => condition.bodies ++ thenBranch.bodies
  | .branch condition thenBranch (some elseBranch) _ =>
    condition.bodies ++ thenBranch.bodies ++ elseBranch.bodies
  | .block body _ => Stmt.allBodies body
  | .loop condition body _ => condition.bodies ++ body.bodies
  | .select scrutinee arms _ => scrutinee.bodies ++ Arm.allBodies arms
  | .attempt body handler _ => body.bodies ++ handler.bodies

def Stmt.allBodies : List Stmt → List Stmt
  | [] => []
  | s :: rest => s.bodies ++ Stmt.allBodies rest

def Arm.allBodies : List Arm → List Stmt
  | [] => []
  | .mk none body :: rest => body.bodies ++ Arm.allBodies rest
  | .mk (some pattern) body :: rest => pattern.bodies ++ body.bodies ++ Arm.allBodies rest

end

section Bodies

mutual

theorem Expr.bodies_untyped (e : Expr) : e.untyped.bodies = e.bodies := by
  match e with
  | .literal .. | .reference .. | .function .. => rfl
  | .binary _ left right _ =>
      rw [Expr.untyped, Expr.bodies, Expr.bodies, left.bodies_untyped, right.bodies_untyped]
  | .unary _ operand _ => rw [Expr.untyped, Expr.bodies, Expr.bodies, operand.bodies_untyped]
  | .call _ args _ => rw [Expr.untyped, Expr.bodies, Expr.bodies, Expr.allBodies_untypedAll args]
  | .suspend payload _ => rw [Expr.untyped, Expr.bodies, Expr.bodies, payload.bodies_untyped]

theorem Expr.allBodies_untypedAll (es : List Expr) :
    Expr.allBodies (Expr.untypedAll es) = Expr.allBodies es := by
  match es with
  | [] => rfl
  | e :: rest =>
      rw [Expr.untypedAll, Expr.allBodies, Expr.allBodies, e.bodies_untyped,
        Expr.allBodies_untypedAll rest]

end

mutual

theorem Stmt.bodies_untyped (s : Stmt) : s.untyped.bodies = s.bodies := by
  match s with
  | .declare _ _ _ value _ | .assign _ value _ | .evaluate value _ =>
      rw [Stmt.untyped, Stmt.bodies, Stmt.bodies, value.bodies_untyped]
  | .branch condition thenBranch none _ =>
      rw [Stmt.untyped, Stmt.bodies, Stmt.bodies, condition.bodies_untyped,
        thenBranch.bodies_untyped]
  | .branch condition thenBranch (some elseBranch) _ =>
      rw [Stmt.untyped, Stmt.bodies, Stmt.bodies, condition.bodies_untyped,
        thenBranch.bodies_untyped, elseBranch.bodies_untyped]
  | .block body _ => rw [Stmt.untyped, Stmt.bodies, Stmt.bodies, Stmt.allBodies_untypedAll body]
  | .loop condition body _ =>
      rw [Stmt.untyped, Stmt.bodies, Stmt.bodies, condition.bodies_untyped, body.bodies_untyped]
  | .select scrutinee arms _ =>
      rw [Stmt.untyped, Stmt.bodies, Stmt.bodies, scrutinee.bodies_untyped,
        Arm.allBodies_untypedAll arms]
  | .attempt body handler _ =>
      rw [Stmt.untyped, Stmt.bodies, Stmt.bodies, body.bodies_untyped, handler.bodies_untyped]

theorem Stmt.allBodies_untypedAll (body : List Stmt) :
    Stmt.allBodies (Stmt.untypedAll body) = Stmt.allBodies body := by
  match body with
  | [] => rfl
  | s :: rest =>
      rw [Stmt.untypedAll, Stmt.allBodies, Stmt.allBodies, s.bodies_untyped,
        Stmt.allBodies_untypedAll rest]

theorem Arm.allBodies_untypedAll (arms : List Arm) :
    Arm.allBodies (Arm.untypedAll arms) = Arm.allBodies arms := by
  match arms with
  | [] => rfl
  | .mk none body :: rest =>
      rw [Arm.untypedAll, Arm.allBodies, Arm.allBodies, body.bodies_untyped,
        Arm.allBodies_untypedAll rest]
  | .mk (some pattern) body :: rest =>
      rw [Arm.untypedAll, Arm.allBodies, Arm.allBodies, pattern.bodies_untyped,
        body.bodies_untyped, Arm.allBodies_untypedAll rest]

end

end Bodies

section Left

mutual

theorem Expr.notes_untyped (e : Expr) : e.untyped.notes = e.bodies.flatMap Stmt.notes := by
  match e with
  | .literal .. | .reference .. => rfl
  | .binary _ left right _ =>
      simp [Expr.untyped, Expr.notes, Expr.bodies, left.notes_untyped, right.notes_untyped]
  | .unary _ operand _ => simp [Expr.untyped, Expr.notes, Expr.bodies, operand.notes_untyped]
  | .call _ args _ => simp [Expr.untyped, Expr.notes, Expr.bodies, Expr.allNotes_untypedAll args]
  | .suspend payload _ => simp [Expr.untyped, Expr.notes, Expr.bodies, payload.notes_untyped]
  -- The body is not gone into, so whatever notes it has are left.
  | .function .. => simp [Expr.untyped, Expr.notes, Expr.bodies]

theorem Expr.allNotes_untypedAll (es : List Expr) :
    Expr.allNotes (Expr.untypedAll es) = (Expr.allBodies es).flatMap Stmt.notes := by
  match es with
  | [] => rfl
  | e :: rest =>
      simp [Expr.untypedAll, Expr.allNotes, Expr.allBodies, e.notes_untyped,
        Expr.allNotes_untypedAll rest]

end

mutual

theorem Stmt.notes_untyped (s : Stmt) : s.untyped.notes = s.bodies.flatMap Stmt.notes := by
  match s with
  | .declare _ _ _ value _ | .assign _ value _ | .evaluate value _ =>
      rw [Stmt.untyped, Stmt.notes, Stmt.bodies, value.notes_untyped]
  | .branch condition thenBranch none _ =>
      rw [Stmt.untyped, Stmt.notes, Stmt.bodies, List.flatMap_append, condition.notes_untyped,
        thenBranch.notes_untyped]
  | .branch condition thenBranch (some elseBranch) _ =>
      rw [Stmt.untyped, Stmt.notes, Stmt.bodies, List.flatMap_append, List.flatMap_append,
        condition.notes_untyped, thenBranch.notes_untyped, elseBranch.notes_untyped]
  | .block body _ => rw [Stmt.untyped, Stmt.notes, Stmt.bodies, Stmt.allNotes_untypedAll body]
  | .loop condition body _ =>
      rw [Stmt.untyped, Stmt.notes, Stmt.bodies, List.flatMap_append, condition.notes_untyped,
        body.notes_untyped]
  | .select scrutinee arms _ =>
      rw [Stmt.untyped, Stmt.notes, Stmt.bodies, List.flatMap_append, scrutinee.notes_untyped,
        Arm.allNotes_untypedAll arms]
  | .attempt body handler _ =>
      rw [Stmt.untyped, Stmt.notes, Stmt.bodies, List.flatMap_append, body.notes_untyped,
        handler.notes_untyped]

theorem Stmt.allNotes_untypedAll (body : List Stmt) :
    Stmt.allNotes (Stmt.untypedAll body) = (Stmt.allBodies body).flatMap Stmt.notes := by
  match body with
  | [] => rfl
  | s :: rest =>
      rw [Stmt.untypedAll, Stmt.allNotes, Stmt.allBodies, List.flatMap_append, s.notes_untyped,
        Stmt.allNotes_untypedAll rest]

theorem Arm.allNotes_untypedAll (arms : List Arm) :
    Arm.allNotes (Arm.untypedAll arms) = (Arm.allBodies arms).flatMap Stmt.notes := by
  match arms with
  | [] => rfl
  | .mk none body :: rest =>
      rw [Arm.untypedAll, Arm.allNotes, Arm.allBodies, List.flatMap_append, body.notes_untyped,
        Arm.allNotes_untypedAll rest]
  | .mk (some pattern) body :: rest =>
      rw [Arm.untypedAll, Arm.allNotes, Arm.allBodies, List.flatMap_append, List.flatMap_append,
        pattern.notes_untyped, body.notes_untyped, Arm.allNotes_untypedAll rest]

end

end Left

section Rest

mutual

theorem Expr.bare_untyped (e : Expr) : e.untyped.bare = e.bare := by
  match e with
  | .literal .. | .reference .. | .function .. => rfl
  | .binary _ left right _ =>
      rw [Expr.untyped, Expr.bare, Expr.bare, left.bare_untyped, right.bare_untyped,
        Mark.untyped_untyped]
  | .unary _ operand _ =>
      rw [Expr.untyped, Expr.bare, Expr.bare, operand.bare_untyped, Mark.untyped_untyped]
  | .call _ args _ =>
      rw [Expr.untyped, Expr.bare, Expr.bare, Expr.bareAll_untypedAll args, Mark.untyped_untyped]
  | .suspend payload _ =>
      rw [Expr.untyped, Expr.bare, Expr.bare, payload.bare_untyped, Mark.untyped_untyped]

theorem Expr.bareAll_untypedAll (es : List Expr) :
    Expr.bareAll (Expr.untypedAll es) = Expr.bareAll es := by
  match es with
  | [] => rfl
  | e :: rest =>
      rw [Expr.untypedAll, Expr.bareAll, Expr.bareAll, e.bare_untyped, Expr.bareAll_untypedAll rest]

end

mutual

theorem Stmt.bare_untyped (s : Stmt) : s.untyped.bare = s.bare := by
  match s with
  | .declare _ _ _ value _ | .assign _ value _ | .evaluate value _ =>
      rw [Stmt.untyped, Stmt.bare, Stmt.bare, value.bare_untyped]
  | .branch condition thenBranch none _ =>
      rw [Stmt.untyped, Stmt.bare, Stmt.bare, condition.bare_untyped, thenBranch.bare_untyped]
  | .branch condition thenBranch (some elseBranch) _ =>
      rw [Stmt.untyped, Stmt.bare, Stmt.bare, condition.bare_untyped, thenBranch.bare_untyped,
        elseBranch.bare_untyped]
  | .block body _ => rw [Stmt.untyped, Stmt.bare, Stmt.bare, Stmt.bareAll_untypedAll body]
  | .loop condition body _ =>
      rw [Stmt.untyped, Stmt.bare, Stmt.bare, condition.bare_untyped, body.bare_untyped]
  | .select scrutinee arms _ =>
      rw [Stmt.untyped, Stmt.bare, Stmt.bare, scrutinee.bare_untyped, Arm.bareAll_untypedAll arms]
  | .attempt body handler _ =>
      rw [Stmt.untyped, Stmt.bare, Stmt.bare, body.bare_untyped, handler.bare_untyped]

theorem Stmt.bareAll_untypedAll (body : List Stmt) :
    Stmt.bareAll (Stmt.untypedAll body) = Stmt.bareAll body := by
  match body with
  | [] => rfl
  | s :: rest =>
      rw [Stmt.untypedAll, Stmt.bareAll, Stmt.bareAll, s.bare_untyped, Stmt.bareAll_untypedAll rest]

theorem Arm.bareAll_untypedAll (arms : List Arm) :
    Arm.bareAll (Arm.untypedAll arms) = Arm.bareAll arms := by
  match arms with
  | [] => rfl
  | .mk none body :: rest =>
      rw [Arm.untypedAll, Arm.bareAll, Arm.bareAll, body.bare_untyped, Arm.bareAll_untypedAll rest]
  | .mk (some pattern) body :: rest =>
      rw [Arm.untypedAll, Arm.bareAll, Arm.bareAll, pattern.bare_untyped, body.bare_untyped,
        Arm.bareAll_untypedAll rest]

end

theorem Expr.text_untyped (e : Expr) : e.untyped.text = e.text :=
  calc e.untyped.text
    _ = e.untyped.bare.text := e.untyped.text_bare.symm
    _ = e.bare.text := by rw [e.bare_untyped]
    _ = e.text := e.text_bare

theorem Stmt.text_untyped (s : Stmt) : s.untyped.text = s.text :=
  calc s.untyped.text
    _ = s.untyped.bare.text := s.untyped.text_bare.symm
    _ = s.bare.text := by rw [s.bare_untyped]
    _ = s.text := s.text_bare

end Rest

section Again

mutual

theorem Expr.untyped_untyped (e : Expr) : e.untyped.untyped = e.untyped := by
  match e with
  | .literal .. | .reference .. | .function .. => rfl
  | .binary _ left right _ =>
      rw [Expr.untyped, Expr.untyped, left.untyped_untyped, right.untyped_untyped,
        Mark.untyped_untyped]
  | .unary _ operand _ =>
      rw [Expr.untyped, Expr.untyped, operand.untyped_untyped, Mark.untyped_untyped]
  | .call _ args _ =>
      rw [Expr.untyped, Expr.untyped, Expr.untypedAll_untypedAll args, Mark.untyped_untyped]
  | .suspend payload _ =>
      rw [Expr.untyped, Expr.untyped, payload.untyped_untyped, Mark.untyped_untyped]

theorem Expr.untypedAll_untypedAll (es : List Expr) :
    Expr.untypedAll (Expr.untypedAll es) = Expr.untypedAll es := by
  match es with
  | [] => rfl
  | e :: rest =>
      rw [Expr.untypedAll, Expr.untypedAll, e.untyped_untyped, Expr.untypedAll_untypedAll rest]

end

mutual

theorem Stmt.untyped_untyped (s : Stmt) : s.untyped.untyped = s.untyped := by
  match s with
  | .declare _ _ _ value _ | .assign _ value _ | .evaluate value _ =>
      rw [Stmt.untyped, Stmt.untyped, value.untyped_untyped]
  | .branch condition thenBranch none _ =>
      rw [Stmt.untyped, Stmt.untyped, condition.untyped_untyped, thenBranch.untyped_untyped]
  | .branch condition thenBranch (some elseBranch) _ =>
      rw [Stmt.untyped, Stmt.untyped, condition.untyped_untyped, thenBranch.untyped_untyped,
        elseBranch.untyped_untyped]
  | .block body _ => rw [Stmt.untyped, Stmt.untyped, Stmt.untypedAll_untypedAll body]
  | .loop condition body _ =>
      rw [Stmt.untyped, Stmt.untyped, condition.untyped_untyped, body.untyped_untyped]
  | .select scrutinee arms _ =>
      rw [Stmt.untyped, Stmt.untyped, scrutinee.untyped_untyped, Arm.untypedAll_untypedAll arms]
  | .attempt body handler _ =>
      rw [Stmt.untyped, Stmt.untyped, body.untyped_untyped, handler.untyped_untyped]

theorem Stmt.untypedAll_untypedAll (body : List Stmt) :
    Stmt.untypedAll (Stmt.untypedAll body) = Stmt.untypedAll body := by
  match body with
  | [] => rfl
  | s :: rest =>
      rw [Stmt.untypedAll, Stmt.untypedAll, s.untyped_untyped, Stmt.untypedAll_untypedAll rest]

theorem Arm.untypedAll_untypedAll (arms : List Arm) :
    Arm.untypedAll (Arm.untypedAll arms) = Arm.untypedAll arms := by
  match arms with
  | [] => rfl
  | .mk none body :: rest =>
      rw [Arm.untypedAll, Arm.untypedAll, body.untyped_untyped, Arm.untypedAll_untypedAll rest]
  | .mk (some pattern) body :: rest =>
      rw [Arm.untypedAll, Arm.untypedAll, pattern.untyped_untyped, body.untyped_untyped,
        Arm.untypedAll_untypedAll rest]

end

end Again

/-- Removing type notes leaves those in the bodies of function literals, and no others; so none is
left exactly if these bodies have none. The bodies stay as they are, and of all else only the notes
go: locations, declared types and whatever a tree is made of stay. Removing them once more changes
nothing. Text and evaluation are the same without them, and so is execution, whether it succeeds or
fails. -/
theorem untyped_keeps_rest (e : Expr) (s : Stmt) :
    (e.untyped.notes = e.bodies.flatMap Stmt.notes ∧
      s.untyped.notes = s.bodies.flatMap Stmt.notes) ∧
    ((e.untyped.notes = [] ↔ ∀ body ∈ e.bodies, body.notes = []) ∧
      (s.untyped.notes = [] ↔ ∀ body ∈ s.bodies, body.notes = [])) ∧
    (e.untyped.bodies = e.bodies ∧ s.untyped.bodies = s.bodies) ∧
    (e.untyped.bare = e.bare ∧ s.untyped.bare = s.bare) ∧
    (e.untyped.untyped = e.untyped ∧ s.untyped.untyped = s.untyped) ∧
    (e.untyped.text = e.text ∧ s.untyped.text = s.text) ∧
    (∀ env, e.untyped.eval env = e.eval env) ∧
    ∀ session, s.untyped.exec.run session = s.exec.run session := by
  refine ⟨⟨e.notes_untyped, s.notes_untyped⟩, ⟨?_, ?_⟩, ⟨e.bodies_untyped, s.bodies_untyped⟩,
    ⟨e.bare_untyped, s.bare_untyped⟩, ⟨e.untyped_untyped, s.untyped_untyped⟩,
    ⟨e.text_untyped, s.text_untyped⟩, fun env => Expr.eval_untyped env e, fun session => ?_⟩
  · rw [e.notes_untyped, List.flatMap_eq_nil_iff]
  · rw [s.notes_untyped, List.flatMap_eq_nil_iff]
  · rw [s.exec_untyped]

/-- A function literal whose body is a number with a note. -/
theorem Expr.untyped_leaves_note : ¬ ∀ e : Expr, e.untyped.notes = [] := by
  intro clean
  have none_ := clean (.function [] .int (.evaluate (.literal (.int 1) ⟨some .int, {}⟩) {}) {})
  cases none_

end Resumable
