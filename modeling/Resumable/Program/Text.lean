import Resumable.Program.Tree
import Resumable.Text.Quoted

/-! Program text of expressions and statements. -/

namespace Resumable

def BinaryOp.text : BinaryOp → String
  | add => "+"
  | sub => "-"
  | mul => "*"
  | div => "/"
  | rem => "%"
  | eq => "=="
  | notEq => "!="
  | lt => "<"
  | ltEq => "<="
  | gt => ">"
  | gtEq => ">="
  | and => "&&"
  | or => "||"

def UnaryOp.text : UnaryOp → String
  | neg => "-"
  | not => "!"

/-- Literals quote text and characters, and show doubles with a point. -/
def Value.literalText : Value → String
  | double value => value.render Double.literalLayout
  | char value => Text.quoteChar value
  | str value => Text.quoteString value
  | value => value.text

def braced (inside : String) : String := "\x7b " ++ inside ++ " \x7d"

def Parameter.text (p : Parameter) : String := p.name ++ ": " ++ p.type.text

mutual

def Expr.text : Expr → String
  | .literal value _ => value.literalText
  | .reference name _ => name
  | .binary op left right _ => "(" ++ left.text ++ " " ++ op.text ++ " " ++ right.text ++ ")"
  | .unary op operand _ => op.text ++ operand.text
  | .call name args _ => name ++ "(" ++ ", ".intercalate (Expr.texts args) ++ ")"
  | .suspend payload _ => "yieldval(" ++ payload.text ++ ")"
  | .function params _ _ _ =>
    "(" ++ ", ".intercalate (params.map Parameter.text) ++ ") => " ++ braced ".."

def Expr.texts : List Expr → List String
  | [] => []
  | e :: rest => e.text :: Expr.texts rest

end

mutual

def Stmt.text : Stmt → String
  | .declare name type mutable value _ =>
    (if mutable then "var " else "val ") ++ name ++ ": " ++ type.text ++ " = " ++ value.text
  | .assign target value _ => target ++ " = " ++ value.text
  | .evaluate value _ => value.text
  | .branch condition thenBranch none _ => "if " ++ condition.text ++ " " ++ braced thenBranch.text
  | .branch condition thenBranch (some elseBranch) _ =>
    "if " ++ condition.text ++ " " ++ braced thenBranch.text ++ " else " ++ braced elseBranch.text
  | .block body _ => "; ".intercalate (Stmt.texts body)
  | .loop condition body _ => "while " ++ condition.text ++ " " ++ braced body.text
  | .select scrutinee arms _ => "match " ++ scrutinee.text ++ " \x7b " ++ Arm.texts arms ++ "\x7d"
  | .attempt body handler _ => "try " ++ braced body.text ++ " catch " ++ braced handler.text

def Stmt.texts : List Stmt → List String
  | [] => []
  | s :: rest => s.text :: Stmt.texts rest

def Arm.texts : List Arm → String
  | [] => ""
  | .mk none body :: rest => "_ => " ++ braced body.text ++ " " ++ Arm.texts rest
  | .mk (some pattern) body :: rest =>
    pattern.text ++ " => " ++ braced body.text ++ " " ++ Arm.texts rest

end

end Resumable
