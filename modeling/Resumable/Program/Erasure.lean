import Resumable.Program.Tree

/-! Removing type notes from trees. -/

namespace Resumable

def Mark.untyped (mark : Mark) : Mark := { mark with type := none }

mutual

/-- The same expression without type notes. A function literal loses its own note and keeps its
body. -/
def Expr.untyped : Expr → Expr
  | .literal value mark => .literal value mark.untyped
  | .reference name mark => .reference name mark.untyped
  | .binary op left right mark => .binary op left.untyped right.untyped mark.untyped
  | .unary op operand mark => .unary op operand.untyped mark.untyped
  | .call name args mark => .call name (Expr.untypedAll args) mark.untyped
  | .suspend payload mark => .suspend payload.untyped mark.untyped
  | .function params yieldType body mark => .function params yieldType body mark.untyped

def Expr.untypedAll : List Expr → List Expr
  | [] => []
  | e :: rest => e.untyped :: Expr.untypedAll rest

end

mutual

def Stmt.untyped : Stmt → Stmt
  | .declare name type mutable value location => .declare name type mutable value.untyped location
  | .assign target value location => .assign target value.untyped location
  | .evaluate value location => .evaluate value.untyped location
  | .branch condition thenBranch none location =>
    .branch condition.untyped thenBranch.untyped none location
  | .branch condition thenBranch (some elseBranch) location =>
    .branch condition.untyped thenBranch.untyped (some elseBranch.untyped) location
  | .block body location => .block (Stmt.untypedAll body) location
  | .loop condition body location => .loop condition.untyped body.untyped location
  | .select scrutinee arms location => .select scrutinee.untyped (Arm.untypedAll arms) location
  | .attempt body handler location => .attempt body.untyped handler.untyped location

def Stmt.untypedAll : List Stmt → List Stmt
  | [] => []
  | s :: rest => s.untyped :: Stmt.untypedAll rest

def Arm.untypedAll : List Arm → List Arm
  | [] => []
  | .mk none body :: rest => .mk none body.untyped :: Arm.untypedAll rest
  | .mk (some pattern) body :: rest =>
    .mk (some pattern.untyped) body.untyped :: Arm.untypedAll rest

end

end Resumable
