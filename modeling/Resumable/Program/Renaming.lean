import Resumable.Program.Tree

/-! Renaming the references of an expression. -/

namespace Resumable

variable {m : Type → Type} [Monad m]

mutual

/-- Replaces every reference, from left to right, by the name that `rename` finds for it. Names of
called functions and the bodies of function literals stay as they are. -/
def Expr.mapReferences (rename : String → Location → m String) : Expr → m Expr
  | .literal value mark => pure (.literal value mark)
  | .reference name mark => do return .reference (← rename name mark.location) mark
  | .binary op left right mark => do
    let left ← left.mapReferences rename
    let right ← right.mapReferences rename
    return .binary op left right mark
  | .unary op operand mark => do return .unary op (← operand.mapReferences rename) mark
  | .call name args mark => do return .call name (← Expr.mapAllReferences rename args) mark
  | .suspend payload mark => do return .suspend (← payload.mapReferences rename) mark
  | .function params yieldType body mark => pure (.function params yieldType body mark)

def Expr.mapAllReferences (rename : String → Location → m String) : List Expr → m (List Expr)
  | [] => pure []
  | e :: rest => do
    let e ← e.mapReferences rename
    let rest ← Expr.mapAllReferences rename rest
    return e :: rest

end

end Resumable
