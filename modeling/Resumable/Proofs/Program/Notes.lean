import Resumable.Program.Erasure
import Resumable.Program.Renaming
import Resumable.Program.Text
import Resumable.Proofs.Program.Payloads

/-! Programs without any type notes. What is bare has none in the bodies of function literals either;
where there are no such literals, that is what is left when notes are removed. -/

namespace Resumable

mutual

/-- The same expression without type notes, those in the bodies of function literals included. -/
def Expr.bare : Expr → Expr
  | .literal value mark => .literal value mark.untyped
  | .reference name mark => .reference name mark.untyped
  | .binary op left right mark => .binary op left.bare right.bare mark.untyped
  | .unary op operand mark => .unary op operand.bare mark.untyped
  | .call name args mark => .call name (Expr.bareAll args) mark.untyped
  | .suspend payload mark => .suspend payload.bare mark.untyped
  | .function params yieldType body mark => .function params yieldType body.bare mark.untyped

def Expr.bareAll : List Expr → List Expr
  | [] => []
  | e :: rest => e.bare :: Expr.bareAll rest

def Stmt.bare : Stmt → Stmt
  | .declare name type mutable value location => .declare name type mutable value.bare location
  | .assign target value location => .assign target value.bare location
  | .evaluate value location => .evaluate value.bare location
  | .branch condition thenBranch none location =>
    .branch condition.bare thenBranch.bare none location
  | .branch condition thenBranch (some elseBranch) location =>
    .branch condition.bare thenBranch.bare (some elseBranch.bare) location
  | .block body location => .block (Stmt.bareAll body) location
  | .loop condition body location => .loop condition.bare body.bare location
  | .select scrutinee arms location => .select scrutinee.bare (Arm.bareAll arms) location
  | .attempt body handler location => .attempt body.bare handler.bare location

def Stmt.bareAll : List Stmt → List Stmt
  | [] => []
  | s :: rest => s.bare :: Stmt.bareAll rest

def Arm.bareAll : List Arm → List Arm
  | [] => []
  | .mk none body :: rest => .mk none body.bare :: Arm.bareAll rest
  | .mk (some pattern) body :: rest => .mk (some pattern.bare) body.bare :: Arm.bareAll rest

end

def Mark.notes (mark : Mark) : List DataType := mark.type.toList

mutual

/-- The type notes on an expression and on all expressions inside it, those in the bodies of function
literals included. Declared types are no notes. -/
def Expr.notes : Expr → List DataType
  | .literal _ mark => mark.notes
  | .reference _ mark => mark.notes
  | .binary _ left right mark => mark.notes ++ left.notes ++ right.notes
  | .unary _ operand mark => mark.notes ++ operand.notes
  | .call _ args mark => mark.notes ++ Expr.allNotes args
  | .suspend payload mark => mark.notes ++ payload.notes
  | .function _ _ body mark => mark.notes ++ body.notes

def Expr.allNotes : List Expr → List DataType
  | [] => []
  | e :: rest => e.notes ++ Expr.allNotes rest

def Stmt.notes : Stmt → List DataType
  | .declare _ _ _ value _ => value.notes
  | .assign _ value _ => value.notes
  | .evaluate value _ => value.notes
  | .branch condition thenBranch none _ => condition.notes ++ thenBranch.notes
  | .branch condition thenBranch (some elseBranch) _ =>
    condition.notes ++ thenBranch.notes ++ elseBranch.notes
  | .block body _ => Stmt.allNotes body
  | .loop condition body _ => condition.notes ++ body.notes
  | .select scrutinee arms _ => scrutinee.notes ++ Arm.allNotes arms
  | .attempt body handler _ => body.notes ++ handler.notes

def Stmt.allNotes : List Stmt → List DataType
  | [] => []
  | s :: rest => s.notes ++ Stmt.allNotes rest

def Arm.allNotes : List Arm → List DataType
  | [] => []
  | .mk none body :: rest => body.notes ++ Arm.allNotes rest
  | .mk (some pattern) body :: rest => pattern.notes ++ body.notes ++ Arm.allNotes rest

end

def Function.bare (function : Function) : Function := { function with body := function.body.bare }

@[simp] theorem Mark.notes_untyped (mark : Mark) : mark.untyped.notes = [] := rfl

@[simp] theorem Mark.untyped_untyped (mark : Mark) : mark.untyped.untyped = mark.untyped := rfl

@[simp] theorem Mark.location_untyped (mark : Mark) : mark.untyped.location = mark.location := rfl

mutual

theorem Expr.notes_bare (e : Expr) : e.bare.notes = [] := by
  match e with
  | .literal .. => rfl
  | .reference .. => rfl
  | .binary _ left right _ => simp [Expr.bare, Expr.notes, left.notes_bare, right.notes_bare]
  | .unary _ operand _ => simp [Expr.bare, Expr.notes, operand.notes_bare]
  | .call _ args _ => simp [Expr.bare, Expr.notes, Expr.allNotes_bareAll args]
  | .suspend payload _ => simp [Expr.bare, Expr.notes, payload.notes_bare]
  | .function _ _ body _ => simp [Expr.bare, Expr.notes, body.notes_bare]

theorem Expr.allNotes_bareAll (es : List Expr) : Expr.allNotes (Expr.bareAll es) = [] := by
  match es with
  | [] => rfl
  | e :: rest => simp [Expr.bareAll, Expr.allNotes, e.notes_bare, Expr.allNotes_bareAll rest]

theorem Stmt.notes_bare (s : Stmt) : s.bare.notes = [] := by
  match s with
  | .declare _ _ _ value _ | .assign _ value _ | .evaluate value _ =>
      simp [Stmt.bare, Stmt.notes, value.notes_bare]
  | .branch condition thenBranch none _ =>
      simp [Stmt.bare, Stmt.notes, condition.notes_bare, thenBranch.notes_bare]
  | .branch condition thenBranch (some elseBranch) _ =>
      simp [Stmt.bare, Stmt.notes, condition.notes_bare, thenBranch.notes_bare,
        elseBranch.notes_bare]
  | .block body _ => simp [Stmt.bare, Stmt.notes, Stmt.allNotes_bareAll body]
  | .loop condition body _ => simp [Stmt.bare, Stmt.notes, condition.notes_bare, body.notes_bare]
  | .select scrutinee arms _ =>
      simp [Stmt.bare, Stmt.notes, scrutinee.notes_bare, Arm.allNotes_bareAll arms]
  | .attempt body handler _ => simp [Stmt.bare, Stmt.notes, body.notes_bare, handler.notes_bare]

theorem Stmt.allNotes_bareAll (body : List Stmt) : Stmt.allNotes (Stmt.bareAll body) = [] := by
  match body with
  | [] => rfl
  | s :: rest => simp [Stmt.bareAll, Stmt.allNotes, s.notes_bare, Stmt.allNotes_bareAll rest]

theorem Arm.allNotes_bareAll (arms : List Arm) : Arm.allNotes (Arm.bareAll arms) = [] := by
  match arms with
  | [] => rfl
  | .mk none body :: rest =>
      simp [Arm.bareAll, Arm.allNotes, body.notes_bare, Arm.allNotes_bareAll rest]
  | .mk (some pattern) body :: rest =>
      simp [Arm.bareAll, Arm.allNotes, pattern.notes_bare, body.notes_bare,
        Arm.allNotes_bareAll rest]

end

mutual

theorem Expr.untyped_bare (e : Expr) : e.bare.untyped = e.bare := by
  match e with
  | .literal .. | .reference .. | .function .. => rfl
  | .binary _ left right _ => simp [Expr.bare, Expr.untyped, left.untyped_bare, right.untyped_bare]
  | .unary _ operand _ => simp [Expr.bare, Expr.untyped, operand.untyped_bare]
  | .call _ args _ => simp [Expr.bare, Expr.untyped, Expr.untypedAll_bareAll args]
  | .suspend payload _ => simp [Expr.bare, Expr.untyped, payload.untyped_bare]

theorem Expr.untypedAll_bareAll (es : List Expr) :
    Expr.untypedAll (Expr.bareAll es) = Expr.bareAll es := by
  match es with
  | [] => rfl
  | e :: rest =>
      simp [Expr.bareAll, Expr.untypedAll, e.untyped_bare, Expr.untypedAll_bareAll rest]

end

mutual

theorem Expr.untyped_eq_bare (e : Expr) (direct : e.holdsFunction = false) :
    e.untyped = e.bare := by
  match e with
  | .literal .. | .reference .. => rfl
  | .binary _ left right _ =>
      obtain ⟨first, second⟩ := Bool.or_eq_false_iff.mp direct
      rw [Expr.untyped, Expr.bare, left.untyped_eq_bare first, right.untyped_eq_bare second]
  | .unary _ operand _ => rw [Expr.untyped, Expr.bare, operand.untyped_eq_bare direct]
  | .call _ args _ => rw [Expr.untyped, Expr.bare, Expr.untypedAll_eq_bareAll args direct]
  | .suspend payload _ => rw [Expr.untyped, Expr.bare, payload.untyped_eq_bare direct]
  | .function .. => cases direct

theorem Expr.untypedAll_eq_bareAll (es : List Expr) (direct : Expr.anyHoldsFunction es = false) :
    Expr.untypedAll es = Expr.bareAll es := by
  match es with
  | [] => rfl
  | e :: rest =>
      obtain ⟨first, others⟩ := Bool.or_eq_false_iff.mp direct
      rw [Expr.untypedAll, Expr.bareAll, e.untyped_eq_bare first,
        Expr.untypedAll_eq_bareAll rest others]

end

theorem Expr.plain_bare {e : Expr} (plain : e.plain = true) : e.untyped = e.bare :=
  e.untyped_eq_bare (Expr.plain_iff.mp plain).2

mutual

theorem Stmt.plain_bare (s : Stmt) (plain : s.plain = true) : s.untyped = s.bare := by
  match s with
  | .declare .. | .assign .. | .evaluate .. => rw [Stmt.untyped, Stmt.bare, Expr.plain_bare plain]
  | .branch _ thenBranch none _ =>
      obtain ⟨test, inThen⟩ := Bool.and_eq_true_iff.mp plain
      rw [Stmt.untyped, Stmt.bare, Expr.plain_bare test, thenBranch.plain_bare inThen]
  | .branch _ thenBranch (some elseBranch) _ =>
      obtain ⟨test, both⟩ := Bool.and_eq_true_iff.mp plain
      obtain ⟨inThen, inElse⟩ := Bool.and_eq_true_iff.mp both
      rw [Stmt.untyped, Stmt.bare, Expr.plain_bare test, thenBranch.plain_bare inThen,
        elseBranch.plain_bare inElse]
  | .block body _ => rw [Stmt.untyped, Stmt.bare, Stmt.allPlain_bare body plain]
  | .loop _ body _ =>
      obtain ⟨test, inside⟩ := Bool.and_eq_true_iff.mp plain
      rw [Stmt.untyped, Stmt.bare, Expr.plain_bare test, body.plain_bare inside]
  | .select _ arms _ =>
      obtain ⟨test, inside⟩ := Bool.and_eq_true_iff.mp plain
      rw [Stmt.untyped, Stmt.bare, Expr.plain_bare test, Arm.allPlain_bare arms inside]
  | .attempt body handler _ =>
      obtain ⟨inBody, inHandler⟩ := Bool.and_eq_true_iff.mp plain
      rw [Stmt.untyped, Stmt.bare, body.plain_bare inBody, handler.plain_bare inHandler]

theorem Stmt.allPlain_bare (body : List Stmt) (plain : Stmt.allPlain body = true) :
    Stmt.untypedAll body = Stmt.bareAll body := by
  match body with
  | [] => rfl
  | s :: rest =>
      obtain ⟨first, others⟩ := Bool.and_eq_true_iff.mp plain
      rw [Stmt.untypedAll, Stmt.bareAll, s.plain_bare first, Stmt.allPlain_bare rest others]

theorem Arm.allPlain_bare (arms : List Arm) (plain : Arm.allPlain arms = true) :
    Arm.untypedAll arms = Arm.bareAll arms := by
  match arms with
  | [] => rfl
  | .mk none body :: rest =>
      obtain ⟨first, others⟩ := Bool.and_eq_true_iff.mp plain
      rw [Arm.untypedAll, Arm.bareAll, body.plain_bare first, Arm.allPlain_bare rest others]
  | .mk (some _) body :: rest =>
      obtain ⟨test, both⟩ := Bool.and_eq_true_iff.mp plain
      obtain ⟨first, others⟩ := Bool.and_eq_true_iff.mp both
      rw [Arm.untypedAll, Arm.bareAll, Expr.plain_bare test, body.plain_bare first,
        Arm.allPlain_bare rest others]

end

mutual

theorem Stmt.untyped_bare (s : Stmt) : s.bare.untyped = s.bare := by
  match s with
  | .declare _ _ _ value _ | .assign _ value _ | .evaluate value _ =>
      simp [Stmt.bare, Stmt.untyped, value.untyped_bare]
  | .branch condition thenBranch none _ =>
      simp [Stmt.bare, Stmt.untyped, condition.untyped_bare, thenBranch.untyped_bare]
  | .branch condition thenBranch (some elseBranch) _ =>
      simp [Stmt.bare, Stmt.untyped, condition.untyped_bare, thenBranch.untyped_bare,
        elseBranch.untyped_bare]
  | .block body _ => simp [Stmt.bare, Stmt.untyped, Stmt.untypedAll_bareAll body]
  | .loop condition body _ =>
      simp [Stmt.bare, Stmt.untyped, condition.untyped_bare, body.untyped_bare]
  | .select scrutinee arms _ =>
      simp [Stmt.bare, Stmt.untyped, scrutinee.untyped_bare, Arm.untypedAll_bareAll arms]
  | .attempt body handler _ =>
      simp [Stmt.bare, Stmt.untyped, body.untyped_bare, handler.untyped_bare]

theorem Stmt.untypedAll_bareAll (body : List Stmt) :
    Stmt.untypedAll (Stmt.bareAll body) = Stmt.bareAll body := by
  match body with
  | [] => rfl
  | s :: rest =>
      simp [Stmt.bareAll, Stmt.untypedAll, s.untyped_bare, Stmt.untypedAll_bareAll rest]

theorem Arm.untypedAll_bareAll (arms : List Arm) :
    Arm.untypedAll (Arm.bareAll arms) = Arm.bareAll arms := by
  match arms with
  | [] => rfl
  | .mk none body :: rest =>
      simp [Arm.bareAll, Arm.untypedAll, body.untyped_bare, Arm.untypedAll_bareAll rest]
  | .mk (some pattern) body :: rest =>
      simp [Arm.bareAll, Arm.untypedAll, pattern.untyped_bare, body.untyped_bare,
        Arm.untypedAll_bareAll rest]

end

mutual

theorem Expr.text_bare (e : Expr) : e.bare.text = e.text := by
  match e with
  | .literal .. | .reference .. | .function .. => rfl
  | .binary _ left right _ => simp [Expr.bare, Expr.text, left.text_bare, right.text_bare]
  | .unary _ operand _ => simp [Expr.bare, Expr.text, operand.text_bare]
  | .call _ args _ => simp [Expr.bare, Expr.text, Expr.texts_bareAll args]
  | .suspend payload _ => simp [Expr.bare, Expr.text, payload.text_bare]

theorem Expr.texts_bareAll (es : List Expr) : Expr.texts (Expr.bareAll es) = Expr.texts es := by
  match es with
  | [] => rfl
  | e :: rest => simp [Expr.bareAll, Expr.texts, e.text_bare, Expr.texts_bareAll rest]

end

mutual

theorem Stmt.text_bare (s : Stmt) : s.bare.text = s.text := by
  match s with
  | .declare _ _ _ value _ | .assign _ value _ | .evaluate value _ =>
      simp [Stmt.bare, Stmt.text, value.text_bare]
  | .branch condition thenBranch none _ =>
      simp [Stmt.bare, Stmt.text, condition.text_bare, thenBranch.text_bare]
  | .branch condition thenBranch (some elseBranch) _ =>
      simp [Stmt.bare, Stmt.text, condition.text_bare, thenBranch.text_bare, elseBranch.text_bare]
  | .block body _ => simp [Stmt.bare, Stmt.text, Stmt.texts_bareAll body]
  | .loop condition body _ => simp [Stmt.bare, Stmt.text, condition.text_bare, body.text_bare]
  | .select scrutinee arms _ =>
      simp [Stmt.bare, Stmt.text, scrutinee.text_bare, Arm.texts_bareAll arms]
  | .attempt body handler _ => simp [Stmt.bare, Stmt.text, body.text_bare, handler.text_bare]

theorem Stmt.texts_bareAll (body : List Stmt) : Stmt.texts (Stmt.bareAll body) = Stmt.texts body := by
  match body with
  | [] => rfl
  | s :: rest => simp [Stmt.bareAll, Stmt.texts, s.text_bare, Stmt.texts_bareAll rest]

theorem Arm.texts_bareAll (arms : List Arm) : Arm.texts (Arm.bareAll arms) = Arm.texts arms := by
  match arms with
  | [] => rfl
  | .mk none body :: rest => simp [Arm.bareAll, Arm.texts, body.text_bare, Arm.texts_bareAll rest]
  | .mk (some pattern) body :: rest =>
      simp [Arm.bareAll, Arm.texts, pattern.text_bare, body.text_bare, Arm.texts_bareAll rest]

end

theorem Expr.payload?_bare (e : Expr) : e.bare.payload? = e.payload?.map Expr.bare := by
  cases e <;> rfl

theorem Expr.function?_bare (e : Expr) : e.bare.function? = e.function?.map Function.bare := by
  cases e <;> rfl

theorem Expr.isUnit_bare (e : Expr) : e.bare.isUnit = e.isUnit := by
  cases e with
  | literal value => cases value <;> rfl
  | _ => rfl

theorem Stmt.location_bare (s : Stmt) : s.bare.location = s.location := by
  match s with
  | .declare .. | .assign .. | .evaluate .. | .branch _ _ none _ | .branch _ _ (some _) _
  | .block .. | .loop .. | .select .. | .attempt .. => rfl

theorem Stmt.location_of_bare {s t : Stmt} (same : s.bare = t.bare) : s.location = t.location :=
  calc s.location
    _ = s.bare.location := s.location_bare.symm
    _ = t.bare.location := by rw [same]
    _ = t.location := t.location_bare

theorem Stmt.isUnit_bare (s : Stmt) : s.bare.isUnit = s.isUnit := by
  match s with
  | .evaluate value _ => exact value.isUnit_bare
  | .declare .. | .assign .. | .branch _ _ none _ | .branch _ _ (some _) _
  | .block .. | .loop .. | .select .. | .attempt .. => rfl

section Renaming

variable {m : Type → Type} [Monad m] [LawfulMonad m] (rename : String → Location → m String)

mutual

theorem Expr.mapReferences_bare (e : Expr) :
    e.bare.mapReferences rename = Expr.bare <$> e.mapReferences rename := by
  match e with
  | .literal .. | .function .. => simp [Expr.bare, Expr.mapReferences]
  | .reference .. => simp [Expr.bare, Expr.mapReferences]
  | .binary _ left right _ =>
      simp [Expr.bare, Expr.mapReferences, left.mapReferences_bare, right.mapReferences_bare]
  | .unary _ operand _ => simp [Expr.bare, Expr.mapReferences, operand.mapReferences_bare]
  | .call _ args _ => simp [Expr.bare, Expr.mapReferences, Expr.mapAllReferences_bareAll args]
  | .suspend payload _ => simp [Expr.bare, Expr.mapReferences, payload.mapReferences_bare]

theorem Expr.mapAllReferences_bareAll (es : List Expr) :
    Expr.mapAllReferences rename (Expr.bareAll es) =
      Expr.bareAll <$> Expr.mapAllReferences rename es := by
  match es with
  | [] => simp [Expr.bareAll, Expr.mapAllReferences]
  | e :: rest =>
      simp [Expr.bareAll, Expr.mapAllReferences, e.mapReferences_bare,
        Expr.mapAllReferences_bareAll rest]

end

end Renaming

/-- Statements of the same form, whose parts are equal but for notes. -/
inductive Stmt.Alike : Stmt → Stmt → Prop where
  | declare {name type mutable value value' location} : value.bare = value'.bare →
    Alike (.declare name type mutable value location) (.declare name type mutable value' location)
  | assign {target value value' location} : value.bare = value'.bare →
    Alike (.assign target value location) (.assign target value' location)
  | evaluate {value value' location} : value.bare = value'.bare →
    Alike (.evaluate value location) (.evaluate value' location)
  | skip {condition condition' thenBranch thenBranch' location} :
    condition.bare = condition'.bare → thenBranch.bare = thenBranch'.bare →
    Alike (.branch condition thenBranch none location) (.branch condition' thenBranch' none location)
  | branch {condition condition' thenBranch thenBranch' elseBranch elseBranch' location} :
    condition.bare = condition'.bare → thenBranch.bare = thenBranch'.bare →
    elseBranch.bare = elseBranch'.bare →
    Alike (.branch condition thenBranch (some elseBranch) location)
      (.branch condition' thenBranch' (some elseBranch') location)
  | block {body body' location} : Stmt.bareAll body = Stmt.bareAll body' →
    Alike (.block body location) (.block body' location)
  | loop {condition condition' body body' location} : condition.bare = condition'.bare →
    body.bare = body'.bare → Alike (.loop condition body location) (.loop condition' body' location)
  | select {scrutinee scrutinee' arms arms' location} : scrutinee.bare = scrutinee'.bare →
    Arm.bareAll arms = Arm.bareAll arms' →
    Alike (.select scrutinee arms location) (.select scrutinee' arms' location)
  | attempt {body body' handler handler' location} : body.bare = body'.bare →
    handler.bare = handler'.bare →
    Alike (.attempt body handler location) (.attempt body' handler' location)

theorem Stmt.alike_of_bare {s t : Stmt} (same : s.bare = t.bare) : s.Alike t := by
  rcases s with _ | _ | _ | ⟨_, _, _ | _, _⟩ | _ | _ | _ | _ <;>
    rcases t with _ | _ | _ | ⟨_, _, _ | _, _⟩ | _ | _ | _ | _ <;>
    grind [Stmt.bare, Stmt.Alike]

theorem Stmt.bareAll_nil {body : List Stmt} (same : Stmt.bareAll [] = Stmt.bareAll body) :
    body = [] := by
  cases body with
  | nil => rfl
  | cons => cases same

theorem Stmt.bareAll_cons {s : Stmt} {rest body : List Stmt}
    (same : Stmt.bareAll (s :: rest) = Stmt.bareAll body) :
    ∃ t others, body = t :: others ∧ s.bare = t.bare ∧ Stmt.bareAll rest = Stmt.bareAll others := by
  cases body with
  | nil => cases same
  | cons t others =>
      obtain ⟨first, behind⟩ := List.cons.inj same
      exact ⟨t, others, rfl, first, behind⟩

theorem Arm.bareAll_nil {arms : List Arm} (same : Arm.bareAll [] = Arm.bareAll arms) :
    arms = [] := by
  match arms with
  | [] => rfl
  | .mk none _ :: _ | .mk (some _) _ :: _ => cases same

theorem Arm.bareAll_cons_none {body : Stmt} {rest arms : List Arm}
    (same : Arm.bareAll (.mk none body :: rest) = Arm.bareAll arms) :
    ∃ body' others, arms = .mk none body' :: others ∧ body.bare = body'.bare ∧
      Arm.bareAll rest = Arm.bareAll others := by
  match arms with
  | [] => cases same
  | .mk none body' :: others =>
      obtain ⟨first, behind⟩ := List.cons.inj same
      exact ⟨body', others, rfl, (Arm.mk.inj first).2, behind⟩
  | .mk (some _) _ :: _ => cases (Arm.mk.inj (List.cons.inj same).1).1

theorem Arm.bareAll_cons_some {pattern : Expr} {body : Stmt} {rest arms : List Arm}
    (same : Arm.bareAll (.mk (some pattern) body :: rest) = Arm.bareAll arms) :
    ∃ pattern' body' others, arms = .mk (some pattern') body' :: others ∧
      pattern.bare = pattern'.bare ∧ body.bare = body'.bare ∧
      Arm.bareAll rest = Arm.bareAll others := by
  match arms with
  | [] => cases same
  | .mk none _ :: _ => cases (Arm.mk.inj (List.cons.inj same).1).1
  | .mk (some pattern') body' :: others =>
      obtain ⟨first, behind⟩ := List.cons.inj same
      obtain ⟨test, inside⟩ := Arm.mk.inj first
      exact ⟨pattern', body', others, rfl, Option.some.inj test, inside, behind⟩

end Resumable
