import Resumable.Diagnostic.Warning
import Resumable.Graph.Basic
import Resumable.Program.Renaming
import Resumable.Scope.Symbols

/-! A graph in the making, and the steps that extend it. -/

namespace Resumable

/-- `used` holds the variables that some expression refers to. -/
structure Draft where
  graph : Graph := {}
  symbols : Symbols := {}
  warnings : List Warning := []
  used : List VarId := []

/-- A lowering either extends the draft or gives it up with a failure. -/
abbrev Lower := StateT Draft (Except Failure)

def addMissing (xs ys : List VarId) : List VarId := xs ++ ys.filter fun y => !xs.contains y

/-- Suspensions and function literals have no place inside an expression. -/
def Expr.requirePlain (e : Expr) : Except Failure Unit :=
  if e.suspends then .error ⟨.lowering (.suspensionInExpression e), e.location⟩
  else if e.holdsFunction then .error ⟨.lowering (.functionInBody e), e.location⟩
  else .ok ()

namespace Symbols

/-- The local name of the variable a reference means. The variable joins those found so far. -/
def rename (symbols : Symbols) (scope : ScopeId) (name : String) (location : Location) :
    StateT (List VarId) (Except Failure) String := fun found =>
  match symbols.resolve? scope name with
  | some var => .ok (var.localName, addMissing found [var.id])
  | none => .error ⟨.lowering (.undefined name), location⟩

/-- The expression over local names, with the variables it refers to in the order they are met. -/
def resolveExpr (symbols : Symbols) (scope : ScopeId) (e : Expr) :
    Except Failure (Expr × List VarId) :=
  (e.mapReferences (symbols.rename scope)).run []

def target (symbols : Symbols) (scope : ScopeId) (name : String) (location : Location) :
    Except Failure Variable :=
  match symbols.resolve? scope name with
  | none => .error ⟨.lowering (.undefinedTarget name), location⟩
  | some var =>
    if var.mutable then .ok var
    else .error ⟨.lowering (.immutableTarget name var.parameter), location⟩

def inferType? (symbols : Symbols) (scope : ScopeId) (e : Expr) : Option DataType :=
  match e.staticType?, e with
  | some type, _ => some type
  | none, .reference name _ => (symbols.resolve? scope name).map Variable.type
  | none, _ => none

/-- A type that is known has to pass the test; an unknown one passes. -/
def requireType (symbols : Symbols) (scope : ScopeId) (e : Expr) (fits : DataType → Bool)
    (fault : DataType → LoweringFault) : Except Failure Unit :=
  match symbols.inferType? scope e with
  | none => .ok ()
  | some found => if fits found then .ok () else .error ⟨.lowering (fault found), e.location⟩

end Symbols

namespace Lower

def openScope (outer : ScopeId) : Lower ScopeId := fun draft =>
  let (scope, symbols) := draft.symbols.openScope outer
  .ok (scope, { draft with symbols })

def declare (scope : ScopeId) (name : String) (type : DataType) (mutable parameter : Bool)
    (location : Location) : Lower Variable := fun draft =>
  match draft.symbols.declare scope name type mutable parameter location with
  | (.ok var, symbols) => .ok (var, { draft with symbols })
  | (.error failure, _) => .error failure

def resolve (scope : ScopeId) (e : Expr) (reads : List VarId) : Lower (Expr × List VarId) :=
  fun draft =>
    match draft.symbols.resolveExpr scope e with
    | .ok (resolved, found) =>
      .ok ((resolved, addMissing reads found), { draft with used := addMissing draft.used found })
    | .error failure => .error failure

/-- An assignment refers to its target too, so that a variable that is only written stays live. -/
def resolveTarget (scope : ScopeId) (name : String) (location : Location) (reads : List VarId) :
    Lower (String × List VarId) := do
  let var ← (← get).symbols.target scope name location
  return (var.localName, addMissing reads [var.id])

def warn (cause : WarningCause) (location : Location) : Lower Unit :=
  modify fun draft => { draft with warnings := draft.warnings ++ [⟨cause, location⟩] }

def addNode (kind : NodeKind) (scope : ScopeId) (location : Location) (reads : List VarId)
    (declares : Option VarId) : Lower NodeId := fun draft =>
  let (uid, table) := draft.symbols.variables.takeUid
  let id := draft.graph.size
  let node : Node := { id, uid, kind, scope, reads, declares, location }
  .ok (id, { draft with
    graph := draft.graph.push node
    symbols := { draft.symbols with «variables» := table } })

def connect (source target : NodeId) : Lower Unit := fun draft =>
  match draft.graph.connect source target with
  | .ok graph => .ok ((), { draft with graph })
  | .error failure => .error failure

end Lower
end Resumable
