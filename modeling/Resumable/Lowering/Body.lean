import Resumable.Lowering.Whole
import Resumable.Settings

/-! Lowering one function literal into a control-flow graph. A statement becomes a piece of graph
with a first and a last node; whatever follows it is connected to the last one. -/

namespace Resumable

/-- What is fixed while one body is lowered. -/
structure LoweringContext where
  strict : Bool
  yieldType : DataType

/-- The first and the last node of a piece of graph. -/
structure Piece where
  first : NodeId
  last : NodeId

namespace Lower

def statementPiece (statement : Stmt) (scope : ScopeId) (reads : List VarId)
    (declares : Option VarId) : Lower Piece := do
  let id ← addNode (.statement statement) scope statement.location reads declares
  return ⟨id, id⟩

def unitPiece (scope : ScopeId) (location : Location) : Lower Piece :=
  statementPiece (Stmt.unit location) scope [] none

def suspension (context : LoweringContext) (payload : Expr) (scope : ScopeId)
    (location : Location) : Lower Piece := do
  payload.requirePlain
  (← get).symbols.requireType scope payload context.yieldType.accepts
    (.yieldType context.yieldType)
  let (payload, reads) ← resolve scope payload []
  let id ← addNode (.suspend payload) scope location reads none
  return ⟨id, id⟩

/-- A construct that is kept whole refers to the variables that were there before it. -/
def whole (context : LoweringContext) (construct : Construct) (statement : Stmt)
    (scope : ScopeId) : Lower Piece := do
  if statement.suspends then
    throw ⟨.lowering (.suspensionInside construct), statement.location⟩
  if context.strict then
    throw ⟨.lowering (.unsplittable construct), statement.location⟩
  warn (.keptWhole construct) statement.location
  let firstInner := (← get).symbols.variables.size
  let (statement, reads) ← statement.resolveWhole scope []
  statementPiece statement scope (reads.filter fun var => var < firstInner) none

/-- Joins the two branches of a condition: both start at the branch node and end at the merge. -/
def joinBranches (fork merge : NodeId) (thenPiece elsePiece : Piece) : Lower Piece := do
  connect fork thenPiece.first
  connect fork elsePiece.first
  connect thenPiece.last merge
  connect elsePiece.last merge
  return ⟨fork, merge⟩

/-- The merge comes first, so that the branch can name it. -/
def openBranch (condition : Expr) (scope : ScopeId) (location : Location) :
    Lower (NodeId × NodeId) := do
  condition.requirePlain
  (← get).symbols.requireType scope condition (· = .bool) .conditionType
  let (condition, reads) ← resolve scope condition []
  let merge ← addNode .merge scope location [] none
  let fork ← addNode (.branch condition merge) scope location reads none
  return (fork, merge)

end Lower

mutual

def Stmt.lower (context : LoweringContext) (scope : ScopeId) : Stmt → Lower Piece
  | .declare name type mutable value location => do
    value.requirePlain
    (← get).symbols.requireType scope value type.accepts (.initializerType name type)
    let (value, reads) ← Lower.resolve scope value []
    let var ← Lower.declare scope name type mutable false location
    Lower.statementPiece (.declare var.localName type mutable value location) scope reads
      (some var.id)
  | .assign target value location => do
    value.requirePlain
    let (target, reads) ← Lower.resolveTarget scope target location []
    let (value, reads) ← Lower.resolve scope value reads
    Lower.statementPiece (.assign target value location) scope reads none
  | .evaluate value location =>
    match value.payload? with
    | some payload => Lower.suspension context payload scope location
    | none => do
      value.requirePlain
      let (value, reads) ← Lower.resolve scope value []
      Lower.statementPiece (.evaluate value location) scope reads none
  | .branch condition thenBranch elseBranch location => do
    let (fork, merge) ← Lower.openBranch condition scope location
    let thenScope ← Lower.openScope scope
    let thenPiece ← thenBranch.lower context thenScope
    let elseScope ← Lower.openScope scope
    let elsePiece ← match elseBranch with
      | some elseBranch => elseBranch.lower context elseScope
      | none => Lower.unitPiece elseScope location
    Lower.joinBranches fork merge thenPiece elsePiece
  | .block body location => Stmt.lowerBlock context scope location body
  | .loop condition body location =>
    Lower.whole context .loop (.loop condition body location) scope
  | .select scrutinee arms location =>
    Lower.whole context .select (.select scrutinee arms location) scope
  | .attempt body handler location =>
    Lower.whole context .attempt (.attempt body handler location) scope

/-- An empty block does nothing, and a single statement stands for its block without a scope. -/
def Stmt.lowerBlock (context : LoweringContext) (scope : ScopeId) (location : Location) :
    List Stmt → Lower Piece
  | [] => Lower.unitPiece scope location
  | first :: rest =>
    if rest.isEmpty then first.lower context scope
    else do
      let blockScope ← Lower.openScope scope
      let piece ← first.lower context blockScope
      let last ← Stmt.lowerAfter context blockScope piece.last rest
      return ⟨piece.first, last⟩

/-- Connects statements one after the other behind a node; the last node of all is the answer. -/
def Stmt.lowerAfter (context : LoweringContext) (scope : ScopeId) (last : NodeId) :
    List Stmt → Lower NodeId
  | [] => return last
  | s :: rest => do
    let piece ← s.lower context scope
    Lower.connect last piece.first
    Stmt.lowerAfter context scope piece.last rest

end

/-- Everything that lowering one body gives. -/
structure Body where
  graph : Graph
  symbols : Symbols
  params : List VarId
  yieldType : DataType
  warnings : List Warning

namespace Lower

def declareParams : List Parameter → Lower (List VarId)
  | [] => return []
  | param :: rest => do
    let var ← declare ScopeChain.root param.name param.type false true param.location
    let rest ← declareParams rest
    return var.id :: rest

def unusedWarning (var : Variable) : Warning :=
  ⟨if var.parameter then .unusedParameter var.name else .unusedVariable var.name, var.location⟩

def unusedWarnings (draft : Draft) : List Warning :=
  let unused := draft.symbols.variables.vars.toList.filter fun var => !draft.used.contains var.id
  unused.map unusedWarning

def function (context : LoweringContext) (function : Function) : Lower (List VarId) := do
  let params ← declareParams function.params
  let piece ← function.body.lower context ScopeChain.root
  modify fun draft => { draft with graph := { draft.graph with head := some piece.first } }
  return params

end Lower

/-- Lowers a function literal that takes `arity` parameters. Any failure leaves nothing behind. -/
def Body.build (settings : Settings) (arity : Nat) (e : Expr) : Except Failure Body :=
  match e.function? with
  | none => .error ⟨.lowering (.notFunction e), e.location⟩
  | some function =>
    if function.params.length ≠ arity then
      .error ⟨.lowering (.arity function.params.length arity), e.location⟩
    else do
      let context : LoweringContext := ⟨settings.strict, function.yieldType⟩
      let (params, draft) ← (Lower.function context function).run {}
      return {
        graph := draft.graph
        symbols := draft.symbols
        params
        yieldType := function.yieldType
        warnings := draft.warnings ++ Lower.unusedWarnings draft }

end Resumable
