import Resumable.Program.Erasure
import Resumable.Proofs.Program.Renamed

/-! Where suspensions stand in a body, and what they hand out. -/

namespace Resumable

mutual

/-- An expression and everything that is evaluated inside it. -/
def Expr.parts : Expr → List Expr
  | .literal value mark => [.literal value mark]
  | .reference name mark => [.reference name mark]
  | .binary op left right mark => .binary op left right mark :: (left.parts ++ right.parts)
  | .unary op operand mark => .unary op operand mark :: operand.parts
  | .call name args mark => .call name args mark :: Expr.allParts args
  | .suspend payload mark => .suspend payload mark :: payload.parts
  | .function params yieldType body mark => [.function params yieldType body mark]

def Expr.allParts : List Expr → List Expr
  | [] => []
  | e :: rest => e.parts ++ Expr.allParts rest

end

def Expr.isSimple (e : Expr) : Bool := e.payload?.isNone && e.function?.isNone

/-- No part of the expression is a suspension or a function literal. -/
def Expr.plain (e : Expr) : Bool := e.parts.all Expr.isSimple

mutual

/-- Every expression in the statement is plain. -/
def Stmt.plain : Stmt → Bool
  | .declare _ _ _ value _ => value.plain
  | .assign _ value _ => value.plain
  | .evaluate value _ => value.plain
  | .branch condition thenBranch none _ => condition.plain && thenBranch.plain
  | .branch condition thenBranch (some elseBranch) _ =>
    condition.plain && (thenBranch.plain && elseBranch.plain)
  | .block body _ => Stmt.allPlain body
  | .loop condition body _ => condition.plain && body.plain
  | .select scrutinee arms _ => scrutinee.plain && Arm.allPlain arms
  | .attempt body handler _ => body.plain && handler.plain

def Stmt.allPlain : List Stmt → Bool
  | [] => true
  | s :: rest => s.plain && Stmt.allPlain rest

def Arm.allPlain : List Arm → Bool
  | [] => true
  | .mk none body :: rest => body.plain && Arm.allPlain rest
  | .mk (some pattern) body :: rest => pattern.plain && (body.plain && Arm.allPlain rest)

end

mutual

/-- Suspensions are statements of their own, and none of them stands in a construct that is kept
whole. There are no function literals. -/
def Stmt.orderly : Stmt → Bool
  | .declare _ _ _ value _ => value.plain
  | .assign _ value _ => value.plain
  | .evaluate value _ => (value.payload?.getD value).plain
  | .branch condition thenBranch none _ => condition.plain && thenBranch.orderly
  | .branch condition thenBranch (some elseBranch) _ =>
    condition.plain && (thenBranch.orderly && elseBranch.orderly)
  | .block body _ => Stmt.allOrderly body
  | s => s.plain

def Stmt.allOrderly : List Stmt → Bool
  | [] => true
  | s :: rest => s.orderly && Stmt.allOrderly rest

end

mutual

/-- The payloads of all suspensions in an expression, in the order of the text. Each comes with the
number of variables that are declared before it, which are `known` ones here. -/
def Expr.payloads (known : Nat) : Expr → List (Nat × Expr)
  | .literal .. => []
  | .reference .. => []
  | .binary _ left right _ => left.payloads known ++ right.payloads known
  | .unary _ operand _ => operand.payloads known
  | .call _ args _ => Expr.allPayloads known args
  | .suspend payload _ => (known, payload) :: payload.payloads known
  | .function _ _ body _ => body.payloads known

def Expr.allPayloads (known : Nat) : List Expr → List (Nat × Expr)
  | [] => []
  | e :: rest => e.payloads known ++ Expr.allPayloads known rest

def Stmt.payloads (known : Nat) : Stmt → List (Nat × Expr)
  | .declare _ _ _ value _ => value.payloads known
  | .assign _ value _ => value.payloads known
  | .evaluate value _ => value.payloads known
  | .branch condition thenBranch none _ => condition.payloads known ++ thenBranch.payloads known
  | .branch condition thenBranch (some elseBranch) _ =>
    condition.payloads known ++ (thenBranch.payloads known ++
      elseBranch.payloads (known + thenBranch.declarations.length))
  | .block body _ => Stmt.allPayloads known body
  | .loop condition body _ => condition.payloads known ++ body.payloads known
  | .select scrutinee arms _ => scrutinee.payloads known ++ Arm.allPayloads known arms
  | .attempt body handler _ =>
    body.payloads known ++ handler.payloads (known + body.declarations.length)

def Stmt.allPayloads (known : Nat) : List Stmt → List (Nat × Expr)
  | [] => []
  | s :: rest => s.payloads known ++ Stmt.allPayloads (known + s.declarations.length) rest

def Arm.allPayloads (known : Nat) : List Arm → List (Nat × Expr)
  | [] => []
  | .mk none body :: rest =>
    body.payloads known ++ Arm.allPayloads (known + body.declarations.length) rest
  | .mk (some pattern) body :: rest =>
    pattern.payloads known ++ (body.payloads known ++
      Arm.allPayloads (known + body.declarations.length) rest)

end

mutual

theorem Expr.payloads_eq_nil (known : Nat) (e : Expr) :
    e.payloads known = [] ↔ e.suspends = false := by
  match e with
  | .literal .. | .reference .. => simp [Expr.payloads, Expr.suspends]
  | .binary _ left right _ =>
      simp [Expr.payloads, Expr.suspends, left.payloads_eq_nil, right.payloads_eq_nil]
  | .unary _ operand _ => exact operand.payloads_eq_nil known
  | .call _ args _ => exact Expr.allPayloads_eq_nil known args
  | .suspend .. => simp [Expr.payloads, Expr.suspends]
  | .function _ _ body _ => exact body.payloads_eq_nil known

theorem Expr.allPayloads_eq_nil (known : Nat) (es : List Expr) :
    Expr.allPayloads known es = [] ↔ Expr.anySuspends es = false := by
  match es with
  | [] => simp [Expr.allPayloads, Expr.anySuspends]
  | e :: rest =>
      simp [Expr.allPayloads, Expr.anySuspends, e.payloads_eq_nil, Expr.allPayloads_eq_nil _ rest]

theorem Stmt.payloads_eq_nil (known : Nat) (s : Stmt) :
    s.payloads known = [] ↔ s.suspends = false := by
  match s with
  | .declare _ _ _ value _ | .assign _ value _ | .evaluate value _ =>
      exact value.payloads_eq_nil known
  | .branch condition thenBranch none _ =>
      simp [Stmt.payloads, Stmt.suspends, condition.payloads_eq_nil, thenBranch.payloads_eq_nil]
  | .branch condition thenBranch (some elseBranch) _ =>
      simp [Stmt.payloads, Stmt.suspends, condition.payloads_eq_nil, thenBranch.payloads_eq_nil,
        elseBranch.payloads_eq_nil, and_assoc]
  | .block body _ => exact Stmt.allPayloads_eq_nil known body
  | .loop condition body _ =>
      simp [Stmt.payloads, Stmt.suspends, condition.payloads_eq_nil, body.payloads_eq_nil]
  | .select scrutinee arms _ =>
      simp [Stmt.payloads, Stmt.suspends, scrutinee.payloads_eq_nil, Arm.allPayloads_eq_nil _ arms]
  | .attempt body handler _ =>
      simp [Stmt.payloads, Stmt.suspends, body.payloads_eq_nil, handler.payloads_eq_nil]

theorem Stmt.allPayloads_eq_nil (known : Nat) (body : List Stmt) :
    Stmt.allPayloads known body = [] ↔ Stmt.anySuspends body = false := by
  match body with
  | [] => simp [Stmt.allPayloads, Stmt.anySuspends]
  | s :: rest =>
      simp [Stmt.allPayloads, Stmt.anySuspends, s.payloads_eq_nil, Stmt.allPayloads_eq_nil _ rest]

theorem Arm.allPayloads_eq_nil (known : Nat) (arms : List Arm) :
    Arm.allPayloads known arms = [] ↔ Arm.anySuspends arms = false := by
  match arms with
  | [] => simp [Arm.allPayloads, Arm.anySuspends]
  | .mk none body :: rest =>
      simp [Arm.allPayloads, Arm.anySuspends, body.payloads_eq_nil, Arm.allPayloads_eq_nil _ rest]
  | .mk (some pattern) body :: rest =>
      simp [Arm.allPayloads, Arm.anySuspends, pattern.payloads_eq_nil, body.payloads_eq_nil,
        Arm.allPayloads_eq_nil _ rest, and_assoc]

end

mutual

theorem Expr.plain_eq (e : Expr) : e.plain = (!e.suspends && !e.holdsFunction) := by
  match e with
  | .literal .. | .reference .. | .suspend .. => rfl
  | .binary _ left right _ =>
      have both : (left.parts ++ right.parts).all Expr.isSimple =
          (!(left.suspends || right.suspends) && !(left.holdsFunction || right.holdsFunction)) := by
        rw [List.all_append, ← Expr.plain, ← Expr.plain, left.plain_eq, right.plain_eq,
          Bool.not_or, Bool.not_or]
        ac_rfl
      exact both
  | .unary _ operand _ => exact operand.plain_eq
  | .call _ args _ => exact Expr.all_allParts args
  | .function _ _ body _ => exact (Bool.and_false _).symm

theorem Expr.all_allParts (es : List Expr) :
    (Expr.allParts es).all Expr.isSimple = (!Expr.anySuspends es && !Expr.anyHoldsFunction es) := by
  match es with
  | [] => rfl
  | e :: rest =>
      rw [Expr.allParts, List.all_append, ← Expr.plain, e.plain_eq, Expr.all_allParts rest,
        Expr.anySuspends, Expr.anyHoldsFunction, Bool.not_or, Bool.not_or]
      ac_rfl

end

theorem Expr.plain_iff {e : Expr} :
    e.plain = true ↔ e.suspends = false ∧ e.holdsFunction = false := by
  rw [e.plain_eq, Bool.and_eq_true, Bool.not_eq_true', Bool.not_eq_true']

section Renamed

variable {namings : List Naming}

theorem Expr.Renamed.plain {e e' : Expr} (renamed : e.Renamed namings e') :
    e.plain = true ∧ e'.plain = true :=
  ⟨Expr.plain_iff.mpr renamed.2, Expr.plain_iff.mpr (Renamed.self [e'.references] e renamed
    fun _ present => by simpa using present).2⟩

mutual

theorem Stmt.Renamed.plain (s : Stmt) {s' : Stmt} {outer : List Naming} {inner : Naming}
    (renamed : s.Renamed false outer inner s') : s.plain = true ∧ s'.plain = true := by
  match s with
  | .declare .. =>
      obtain ⟨_, value', inValue, _, _, rfl⟩ := renamed
      exact inValue.plain
  | .assign .. =>
      obtain ⟨_, value', _, inValue, rfl⟩ := renamed
      exact inValue.plain
  | .evaluate .. =>
      obtain ⟨value', inValue, rfl⟩ | ⟨loud, _⟩ := renamed
      · exact inValue.plain
      · cases loud
  | .branch condition thenBranch none _ =>
      obtain ⟨condition', then', test, inThen, rfl⟩ := renamed
      simp [Stmt.plain, test.plain, Stmt.Renamed.plain thenBranch inThen]
  | .branch condition thenBranch (some elseBranch) _ =>
      obtain ⟨condition', then', else', test, inThen, inElse, rfl⟩ := renamed
      simp [Stmt.plain, test.plain, Stmt.Renamed.plain thenBranch inThen,
        Stmt.Renamed.plain elseBranch inElse]
  | .block body _ =>
      obtain ⟨body', inBody, rfl⟩ := renamed
      exact Stmt.RenamedAll.plain body inBody
  | .loop condition body _ =>
      obtain ⟨condition', body', test, inBody, rfl⟩ := renamed
      simp [Stmt.plain, test.plain, Stmt.Renamed.plain body inBody]
  | .select scrutinee arms _ =>
      obtain ⟨scrutinee', arms', inScrutinee, inArms, rfl⟩ := renamed
      simp [Stmt.plain, inScrutinee.plain, Arm.RenamedAll.plain arms inArms]
  | .attempt body handler _ =>
      obtain ⟨body', handler', inBody, inHandler, rfl⟩ := renamed
      simp [Stmt.plain, Stmt.Renamed.plain body inBody, Stmt.Renamed.plain handler inHandler]

theorem Stmt.RenamedAll.plain (body : List Stmt) {body' : List Stmt} {outer : List Naming}
    {inner : Naming} (renamed : Stmt.RenamedAll false outer inner body body') :
    Stmt.allPlain body = true ∧ Stmt.allPlain body' = true := by
  match body with
  | [] =>
      obtain rfl : body' = [] := renamed
      exact ⟨rfl, rfl⟩
  | s :: rest =>
      obtain ⟨s', rest', inFirst, inRest, rfl⟩ := renamed
      simp [Stmt.allPlain, Stmt.Renamed.plain s inFirst, Stmt.RenamedAll.plain rest inRest]

theorem Arm.RenamedAll.plain (arms : List Arm) {arms' : List Arm} {namings : List Naming}
    (renamed : Arm.RenamedAll namings arms arms') :
    Arm.allPlain arms = true ∧ Arm.allPlain arms' = true := by
  match arms with
  | [] =>
      obtain rfl : arms' = [] := renamed
      exact ⟨rfl, rfl⟩
  | .mk none body :: rest =>
      obtain ⟨body', rest', inBody, inRest, rfl⟩ := renamed
      simp [Arm.allPlain, Stmt.Renamed.plain body inBody, Arm.RenamedAll.plain rest inRest]
  | .mk (some pattern) body :: rest =>
      obtain ⟨pattern', body', rest', test, inBody, inRest, rfl⟩ := renamed
      simp [Arm.allPlain, test.plain, Stmt.Renamed.plain body inBody,
        Arm.RenamedAll.plain rest inRest]

end

end Renamed

section Untyped

mutual

theorem Expr.suspends_untyped (e : Expr) : e.untyped.suspends = e.suspends := by
  match e with
  | .literal .. | .reference .. | .suspend .. | .function .. => rfl
  | .binary _ left right _ =>
      simp only [Expr.untyped, Expr.suspends, left.suspends_untyped, right.suspends_untyped]
  | .unary _ operand _ => exact operand.suspends_untyped
  | .call _ args _ => exact Expr.anySuspends_untyped args

theorem Expr.anySuspends_untyped (es : List Expr) :
    Expr.anySuspends (Expr.untypedAll es) = Expr.anySuspends es := by
  match es with
  | [] => rfl
  | e :: rest =>
      simp only [Expr.untypedAll, Expr.anySuspends, e.suspends_untyped,
        Expr.anySuspends_untyped rest]

end

mutual

theorem Expr.holdsFunction_untyped (e : Expr) : e.untyped.holdsFunction = e.holdsFunction := by
  match e with
  | .literal .. | .reference .. | .function .. => rfl
  | .binary _ left right _ =>
      simp only [Expr.untyped, Expr.holdsFunction, left.holdsFunction_untyped,
        right.holdsFunction_untyped]
  | .unary _ operand _ => exact operand.holdsFunction_untyped
  | .call _ args _ => exact Expr.anyHoldsFunction_untyped args
  | .suspend payload _ => exact payload.holdsFunction_untyped

theorem Expr.anyHoldsFunction_untyped (es : List Expr) :
    Expr.anyHoldsFunction (Expr.untypedAll es) = Expr.anyHoldsFunction es := by
  match es with
  | [] => rfl
  | e :: rest =>
      simp only [Expr.untypedAll, Expr.anyHoldsFunction, e.holdsFunction_untyped,
        Expr.anyHoldsFunction_untyped rest]

end

theorem Expr.plain_untyped (e : Expr) : e.untyped.plain = e.plain := by
  rw [Expr.plain_eq, Expr.plain_eq, e.suspends_untyped, e.holdsFunction_untyped]

mutual

theorem Stmt.plain_untyped (s : Stmt) : s.untyped.plain = s.plain := by
  match s with
  | .declare _ _ _ value _ | .assign _ value _ | .evaluate value _ => exact value.plain_untyped
  | .branch condition thenBranch none _ =>
      simp only [Stmt.untyped, Stmt.plain, condition.plain_untyped, thenBranch.plain_untyped]
  | .branch condition thenBranch (some elseBranch) _ =>
      simp only [Stmt.untyped, Stmt.plain, condition.plain_untyped, thenBranch.plain_untyped,
        elseBranch.plain_untyped]
  | .block body _ => exact Stmt.allPlain_untyped body
  | .loop condition body _ =>
      simp only [Stmt.untyped, Stmt.plain, condition.plain_untyped, body.plain_untyped]
  | .select scrutinee arms _ =>
      simp only [Stmt.untyped, Stmt.plain, scrutinee.plain_untyped, Arm.allPlain_untyped arms]
  | .attempt body handler _ =>
      simp only [Stmt.untyped, Stmt.plain, body.plain_untyped, handler.plain_untyped]

theorem Stmt.allPlain_untyped (body : List Stmt) :
    Stmt.allPlain (Stmt.untypedAll body) = Stmt.allPlain body := by
  match body with
  | [] => rfl
  | s :: rest =>
      simp only [Stmt.untypedAll, Stmt.allPlain, s.plain_untyped, Stmt.allPlain_untyped rest]

theorem Arm.allPlain_untyped (arms : List Arm) :
    Arm.allPlain (Arm.untypedAll arms) = Arm.allPlain arms := by
  match arms with
  | [] => rfl
  | .mk none body :: rest =>
      simp only [Arm.untypedAll, Arm.allPlain, body.plain_untyped, Arm.allPlain_untyped rest]
  | .mk (some pattern) body :: rest =>
      simp only [Arm.untypedAll, Arm.allPlain, pattern.plain_untyped, body.plain_untyped,
        Arm.allPlain_untyped rest]

end

end Untyped
end Resumable
