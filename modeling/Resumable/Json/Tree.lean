import Resumable.Json.Basic
import Resumable.Program.Text

/-! The JSON form of program trees. -/

namespace Resumable

open Json

def bareVariant? {α : Type} (table : List (String × α)) (json : Json) : Option α := do
  let (name, payload) ← json.variant?
  if isBare payload then table.lookup name else none

/-- A field that stands for nothing where it is left out or null. -/
def optional? {α : Type} (read : Json → Option α) : Option Json → Option (Option α)
  | none => some none
  | some .null => some none
  | some json => (read json).map some

def defaulted? {α : Type} (value : α) (read : Json → Option α) : Option Json → Option α
  | none => some value
  | some json => read json

def optionJson {α : Type} (write : α → Json) : Option α → Json
  | none => .null
  | some value => write value

def tagged (name : String) (payload : Json) : Json := .obj [(name, payload)]

namespace Position

def json (p : Position) : Json :=
  .obj [("line_number", .int p.line.toInt), ("char_column", .int p.column.toInt)]

def coordinate? (json : Json) : Option Int32 :=
  (json.intIn? Int32.minValue.toInt Int32.maxValue.toInt).map Int32.ofInt

def ofJson? (json : Json) : Option Position :=
  match json.record? [("line_number", .required), ("char_column", .required)] with
  | some [some line, some column] => do return ⟨← coordinate? line, ← coordinate? column⟩
  | _ => none

end Position

namespace Location

def json (location : Location) : Json :=
  .obj [("scope", .str location.scope), ("start_pos", location.start.json),
    ("end_pos", location.stop.json)]

def ofJson? (json : Json) : Option Location :=
  match json.record? [("scope", .defaulted), ("start_pos", .defaulted),
    ("end_pos", .defaulted)] with
  | some [scope, start, stop] => do
    return ⟨← defaulted? "" str? scope, ← defaulted? {} Position.ofJson? start,
      ← defaulted? {} Position.ofJson? stop⟩
  | _ => none

end Location

namespace DataType

def json : DataType → Json
  | ref name => tagged "Ref" (.str name)
  | type => .str type.text

def bareTypes : List (String × DataType) :=
  [unit, bool, int, long, char, double, string].map fun type => (type.text, type)

def ofJson? (json : Json) : Option DataType :=
  match json.variant? with
  | some ("Ref", some payload) => payload.str?.map ref
  | _ => bareVariant? bareTypes json

end DataType

namespace Value

def json : Value → Json
  | unit => .str "Unit"
  | bool value => tagged "Bool" (.bool value)
  | int value => tagged "Int" (.int value.toInt)
  | double value => tagged "Double" (if value.isFinite then .float value else .null)
  | char value => tagged "Char" (.str (String.singleton value))
  | str value => tagged "Str" (.str value)

def word? (json : Json) : Option Int64 :=
  (json.intIn? Int64.minValue.toInt Int64.maxValue.toInt).map Int64.ofInt

/-- Whole numbers stand for doubles too. -/
def double? : Json → Option Double
  | .float value => some value
  | .int value => some (.ofInt value)
  | _ => none

def char? (json : Json) : Option Char :=
  match json with
  | .str text => match text.toList with
    | [c] => some c
    | _ => none
  | _ => none

def ofVariant? (name : String) (payload : Option Json) : Option Value :=
  match name, payload with
  | "Unit", payload => if isBare payload then some unit else none
  | "Bool", some json => json.bool?.map bool
  | "Int", some json => (word? json).map int
  | "Double", some json => (double? json).map double
  | "Char", some json => (char? json).map char
  | "Str", some json => json.str?.map str
  | _, _ => none

end Value

namespace BinaryOp

def name : BinaryOp → String
  | add => "Add"
  | sub => "Sub"
  | mul => "Mul"
  | div => "Div"
  | rem => "Rem"
  | eq => "Eq"
  | notEq => "NotEq"
  | lt => "Lt"
  | ltEq => "LtEq"
  | gt => "Gt"
  | gtEq => "GtEq"
  | and => "And"
  | or => "Or"

def names : List (String × BinaryOp) :=
  [add, sub, mul, div, rem, eq, notEq, lt, ltEq, gt, gtEq, and, or].map fun op => (op.name, op)

def ofJson? (json : Json) : Option BinaryOp := bareVariant? names json

end BinaryOp

namespace UnaryOp

def name : UnaryOp → String
  | neg => "Neg"
  | not => "Not"

def ofJson? (json : Json) : Option UnaryOp :=
  bareVariant? ([neg, not].map fun op => (op.name, op)) json

end UnaryOp

namespace Parameter

def json (p : Parameter) : Json :=
  .obj [("name", .str p.name), ("data_type", p.type.json), ("location", p.location.json)]

def ofJson? (json : Json) : Option Parameter :=
  match json.record? [("name", .required), ("data_type", .required), ("location", .defaulted)] with
  | some [some name, some type, location] => do
    return ⟨← name.str?, ← DataType.ofJson? type, ← defaulted? {} Location.ofJson? location⟩
  | _ => none

end Parameter

def exprJson (kind : Json) (mark : Mark) : Json :=
  .obj [("kind", kind), ("data_type", optionJson DataType.json mark.type),
    ("location", mark.location.json)]

def stmtJson (name : String) (payload : Json) (location : Location) : Json :=
  .obj [("kind", tagged name payload), ("location", location.json)]

mutual

def Expr.json : Expr → Json
  | .literal value mark => exprJson value.json mark
  | .reference name mark => exprJson (tagged "Reference" (.str name)) mark
  | .binary op left right mark =>
    exprJson (tagged "BinaryOp" (.obj [("op", .str op.name), ("lhs", left.json),
      ("rhs", right.json)])) mark
  | .unary op operand mark =>
    exprJson (tagged "UnaryOp" (.obj [("op", .str op.name), ("operand", operand.json)])) mark
  | .call name args mark =>
    exprJson (tagged "Call" (.obj [("name", .str name), ("args", .arr (Expr.jsons args))])) mark
  | .suspend payload mark => exprJson (tagged "Yield" payload.json) mark
  | .function params yieldType body mark =>
    exprJson (tagged "Function" (.obj [("params", .arr (params.map Parameter.json)),
      ("yield_type", yieldType.json), ("body", body.json)])) mark

def Expr.jsons : List Expr → List Json
  | [] => []
  | e :: rest => e.json :: Expr.jsons rest

def Stmt.json : Stmt → Json
  | .declare name type mutable value location =>
    stmtJson "Declaration" (.obj [("name", .str name), ("data_type", type.json),
      ("mutable", .bool mutable), ("value", value.json)]) location
  | .assign target value location =>
    stmtJson "Assignment" (.obj [("target", .str target), ("value", value.json)]) location
  | .evaluate value location => stmtJson "Expression" value.json location
  | .branch condition thenBranch none location =>
    stmtJson "If" (.obj [("condition", condition.json), ("then_branch", thenBranch.json),
      ("else_branch", .null)]) location
  | .branch condition thenBranch (some elseBranch) location =>
    stmtJson "If" (.obj [("condition", condition.json), ("then_branch", thenBranch.json),
      ("else_branch", elseBranch.json)]) location
  | .block body location => stmtJson "Block" (.arr (Stmt.jsons body)) location
  | .loop condition body location =>
    stmtJson "While" (.obj [("condition", condition.json), ("body", body.json)]) location
  | .select scrutinee arms location =>
    stmtJson "Match" (.obj [("scrutinee", scrutinee.json), ("arms", .arr (Arm.jsons arms))])
      location
  | .attempt body handler location =>
    stmtJson "Try" (.obj [("body", body.json), ("handler", handler.json)]) location

def Stmt.jsons : List Stmt → List Json
  | [] => []
  | s :: rest => s.json :: Stmt.jsons rest

def Arm.jsons : List Arm → List Json
  | [] => []
  | .mk none body :: rest => .obj [("pattern", .null), ("body", body.json)] :: Arm.jsons rest
  | .mk (some pattern) body :: rest =>
    .obj [("pattern", pattern.json), ("body", body.json)] :: Arm.jsons rest

end

def Mark.ofJson? (type location : Option Json) : Option Mark := do
  return ⟨← optional? DataType.ofJson? type, ← defaulted? {} Location.ofJson? location⟩

mutual

/-- Reads an expression in which trees are nested less than `levels` deep. -/
def Expr.ofJson? : Nat → Json → Option Expr
  | 0, _ => none
  | levels + 1, json =>
    match json.record? [("kind", .required), ("data_type", .defaulted),
      ("location", .defaulted)] with
    | some [some kind, type, location] => do
      let mark ← Mark.ofJson? type location
      let (name, payload) ← kind.variant?
      Expr.ofVariant? levels name payload mark
    | _ => none

def Expr.ofVariant? (levels : Nat) (name : String) (payload : Option Json) (mark : Mark) :
    Option Expr :=
  match levels, name, payload with
  | 0, _, _ => none
  | _ + 1, "Reference", some json => do return .reference (← json.str?) mark
  | levels + 1, "BinaryOp", some json =>
    match json.record? [("op", .required), ("lhs", .required), ("rhs", .required)] with
    | some [some op, some left, some right] => do
      return .binary (← BinaryOp.ofJson? op) (← Expr.ofJson? levels left)
        (← Expr.ofJson? levels right) mark
    | _ => none
  | levels + 1, "UnaryOp", some json =>
    match json.record? [("op", .required), ("operand", .required)] with
    | some [some op, some operand] => do
      return .unary (← UnaryOp.ofJson? op) (← Expr.ofJson? levels operand) mark
    | _ => none
  | levels + 1, "Call", some json =>
    match json.record? [("name", .required), ("args", .required)] with
    | some [some name, some args] => do
      return .call (← name.str?) (← (← args.arr?).mapM (Expr.ofJson? levels)) mark
    | _ => none
  | levels + 1, "Yield", some json => do return .suspend (← Expr.ofJson? levels json) mark
  | levels + 1, "Function", some json =>
    match json.record? [("params", .required), ("yield_type", .required), ("body", .required)] with
    | some [some params, some yieldType, some body] => do
      return .function (← (← params.arr?).mapM Parameter.ofJson?) (← DataType.ofJson? yieldType)
        (← Stmt.ofJson? levels body) mark
    | _ => none
  | _ + 1, name, payload => do return .literal (← Value.ofVariant? name payload) mark

def Stmt.ofJson? : Nat → Json → Option Stmt
  | 0, _ => none
  | levels + 1, json =>
    match json.record? [("kind", .required), ("location", .defaulted)] with
    | some [some kind, location] => do
      let location ← defaulted? {} Location.ofJson? location
      match kind.variant? with
      | some (name, some payload) => Stmt.ofVariant? levels name payload location
      | _ => none
    | _ => none

def Stmt.ofVariant? (levels : Nat) (name : String) (payload : Json) (location : Location) :
    Option Stmt :=
  match levels, name with
  | 0, _ => none
  | levels + 1, "Declaration" =>
    match payload.record? [("name", .required), ("data_type", .required), ("mutable", .required),
      ("value", .required)] with
    | some [some name, some type, some mutable, some value] => do
      return .declare (← name.str?) (← DataType.ofJson? type) (← mutable.bool?)
        (← Expr.ofJson? levels value) location
    | _ => none
  | levels + 1, "Assignment" =>
    match payload.record? [("target", .required), ("value", .required)] with
    | some [some target, some value] => do
      return .assign (← target.str?) (← Expr.ofJson? levels value) location
    | _ => none
  | levels + 1, "Expression" => do return .evaluate (← Expr.ofJson? levels payload) location
  | levels + 1, "If" =>
    match payload.record? [("condition", .required), ("then_branch", .required),
      ("else_branch", .nullable)] with
    | some [some condition, some thenBranch, elseBranch] => do
      return .branch (← Expr.ofJson? levels condition) (← Stmt.ofJson? levels thenBranch)
        (← optional? (Stmt.ofJson? levels) elseBranch) location
    | _ => none
  | levels + 1, "Block" => do
    return .block (← (← payload.arr?).mapM (Stmt.ofJson? levels)) location
  | levels + 1, "While" =>
    match payload.record? [("condition", .required), ("body", .required)] with
    | some [some condition, some body] => do
      return .loop (← Expr.ofJson? levels condition) (← Stmt.ofJson? levels body) location
    | _ => none
  | levels + 1, "Match" =>
    match payload.record? [("scrutinee", .required), ("arms", .required)] with
    | some [some scrutinee, some arms] => do
      return .select (← Expr.ofJson? levels scrutinee) (← (← arms.arr?).mapM (Arm.ofJson? levels))
        location
    | _ => none
  | levels + 1, "Try" =>
    match payload.record? [("body", .required), ("handler", .required)] with
    | some [some body, some handler] => do
      return .attempt (← Stmt.ofJson? levels body) (← Stmt.ofJson? levels handler) location
    | _ => none
  | _ + 1, _ => none

def Arm.ofJson? (levels : Nat) (json : Json) : Option Arm :=
  match levels with
  | 0 => none
  | levels + 1 =>
    match json.record? [("pattern", .nullable), ("body", .required)] with
    | some [pattern, some body] => do
      return .mk (← optional? (Expr.ofJson? levels) pattern) (← Stmt.ofJson? levels body)
    | _ => none

end

/-- Trees of a text are never nested deeper than its lists and objects. -/
def Expr.fromJson? (json : Json) : Option Expr := Expr.ofJson? (2 * json.depth + 2) json

def Stmt.fromJson? (json : Json) : Option Stmt := Stmt.ofJson? (2 * json.depth + 2) json

end Resumable
