import Resumable.Program.Location
import Resumable.Program.Value

/-! Trees of coroutine bodies. -/

namespace Resumable

inductive BinaryOp where
  | add
  | sub
  | mul
  | div
  | rem
  | eq
  | notEq
  | lt
  | ltEq
  | gt
  | gtEq
  | and
  | or
  deriving DecidableEq

inductive UnaryOp where
  | neg
  | not
  deriving DecidableEq

/-- What a front end may note on an expression: the type it inferred, and the place in the source.
-/
structure Mark where
  type : Option DataType := none
  location : Location := {}
  deriving DecidableEq, Inhabited

structure Parameter where
  name : String
  type : DataType
  location : Location := {}
  deriving DecidableEq

mutual

/-- Everything that has a value. `suspend` hands its payload out of the coroutine. -/
inductive Expr where
  | literal (value : Value) (mark : Mark)
  | reference (name : String) (mark : Mark)
  | binary (op : BinaryOp) (left right : Expr) (mark : Mark)
  | unary (op : UnaryOp) (operand : Expr) (mark : Mark)
  | call (name : String) (args : List Expr) (mark : Mark)
  | suspend (payload : Expr) (mark : Mark)
  | function (params : List Parameter) (yieldType : DataType) (body : Stmt) (mark : Mark)

/-- Loops, selections and attempts are never split: they stay whole in one node of a graph. -/
inductive Stmt where
  | declare (name : String) (type : DataType) (mutable : Bool) (value : Expr) (location : Location)
  | assign (target : String) (value : Expr) (location : Location)
  | evaluate (value : Expr) (location : Location)
  | branch (condition : Expr) (thenBranch : Stmt) (elseBranch : Option Stmt) (location : Location)
  | block (body : List Stmt) (location : Location)
  | loop (condition : Expr) (body : Stmt) (location : Location)
  | select (scrutinee : Expr) (arms : List Arm) (location : Location)
  | attempt (body handler : Stmt) (location : Location)

/-- An arm without a pattern takes whatever reaches it. -/
inductive Arm where
  | mk (pattern : Option Expr) (body : Stmt)

end

/-- A coroutine body with its parameters and the type of what it yields. -/
structure Function where
  params : List Parameter
  yieldType : DataType
  body : Stmt

/-- The constructs that are kept whole. -/
inductive Construct where
  | loop
  | select
  | attempt
  deriving DecidableEq

namespace Construct

def text : Construct → String
  | loop => "while loop"
  | select => "match"
  | attempt => "try block"

end Construct

namespace Expr

def mark : Expr → Mark
  | literal _ mark => mark
  | reference _ mark => mark
  | binary _ _ _ mark => mark
  | unary _ _ mark => mark
  | call _ _ mark => mark
  | suspend _ mark => mark
  | function _ _ _ mark => mark

def location (e : Expr) : Location := e.mark.location

def unit (location : Location) : Expr := literal .unit ⟨some .unit, location⟩

def int (value : Int64) (location : Location) : Expr := literal (.int value) ⟨some .int, location⟩

def bool (value : Bool) (location : Location) : Expr := literal (.bool value) ⟨some .bool, location⟩

def isUnit : Expr → Bool
  | literal .unit _ => true
  | _ => false

def payload? : Expr → Option Expr
  | suspend payload _ => some payload
  | _ => none

def function? : Expr → Option Function
  | function params yieldType body _ => some ⟨params, yieldType, body⟩
  | _ => none

/-- The noted type; a literal without a note has the type of its value. -/
def staticType? (e : Expr) : Option DataType :=
  match e.mark.type, e with
  | some type, _ => some type
  | none, literal value _ => some value.type
  | none, _ => none

end Expr

namespace Stmt

def location : Stmt → Location
  | declare _ _ _ _ location => location
  | assign _ _ location => location
  | evaluate _ location => location
  | branch _ _ _ location => location
  | block _ location => location
  | loop _ _ location => location
  | select _ _ location => location
  | attempt _ _ location => location

/-- Stands for a missing branch and for an empty block. -/
def unit (location : Location) : Stmt := evaluate (Expr.unit location) location

def isUnit : Stmt → Bool
  | evaluate value _ => value.isUnit
  | _ => false

def construct? : Stmt → Option Construct
  | loop .. => some .loop
  | select .. => some .select
  | attempt .. => some .attempt
  | _ => none

end Stmt

mutual

/-- Whether a suspension occurs anywhere inside, the bodies of function literals included. -/
def Expr.suspends : Expr → Bool
  | .literal .. => false
  | .reference .. => false
  | .binary _ left right _ => left.suspends || right.suspends
  | .unary _ operand _ => operand.suspends
  | .call _ args _ => Expr.anySuspends args
  | .suspend .. => true
  | .function _ _ body _ => body.suspends

def Expr.anySuspends : List Expr → Bool
  | [] => false
  | e :: rest => e.suspends || Expr.anySuspends rest

def Stmt.suspends : Stmt → Bool
  | .declare _ _ _ value _ => value.suspends
  | .assign _ value _ => value.suspends
  | .evaluate value _ => value.suspends
  | .branch condition thenBranch none _ => condition.suspends || thenBranch.suspends
  | .branch condition thenBranch (some elseBranch) _ =>
    condition.suspends || thenBranch.suspends || elseBranch.suspends
  | .block body _ => Stmt.anySuspends body
  | .loop condition body _ => condition.suspends || body.suspends
  | .select scrutinee arms _ => scrutinee.suspends || Arm.anySuspends arms
  | .attempt body handler _ => body.suspends || handler.suspends

def Stmt.anySuspends : List Stmt → Bool
  | [] => false
  | s :: rest => s.suspends || Stmt.anySuspends rest

def Arm.anySuspends : List Arm → Bool
  | [] => false
  | .mk none body :: rest => body.suspends || Arm.anySuspends rest
  | .mk (some pattern) body :: rest => pattern.suspends || body.suspends || Arm.anySuspends rest

end

mutual

/-- Whether the expression is a function literal or has one among its operands. -/
def Expr.holdsFunction : Expr → Bool
  | .literal .. => false
  | .reference .. => false
  | .binary _ left right _ => left.holdsFunction || right.holdsFunction
  | .unary _ operand _ => operand.holdsFunction
  | .call _ args _ => Expr.anyHoldsFunction args
  | .suspend payload _ => payload.holdsFunction
  | .function .. => true

def Expr.anyHoldsFunction : List Expr → Bool
  | [] => false
  | e :: rest => e.holdsFunction || Expr.anyHoldsFunction rest

end

end Resumable
