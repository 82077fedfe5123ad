import Resumable.Diagnostic.Fault
import Resumable.Program.Text

/-! Control-flow graphs of one body. -/

namespace Resumable

/-- A branch goes to its first successor when the condition holds and to its second otherwise; both
ways meet again at the merge it names. A suspension's successor is where the body continues later.
-/
inductive NodeKind where
  | branch (condition : Expr) (merge : NodeId)
  | merge
  | suspend (payload : Expr)
  | statement (statement : Stmt)

structure Node where
  id : NodeId
  uid : Nat
  kind : NodeKind
  scope : ScopeId
  successors : List NodeId := []
  reads : List VarId := []
  declares : Option VarId := none
  location : Location

namespace NodeKind

def name : NodeKind → String
  | branch .. => "If"
  | merge => "IfMerge"
  | suspend _ => "YieldVal"
  | statement _ => "Statement"

def fragment : NodeKind → String
  | branch condition _ => "if " ++ condition.text
  | merge => "merge"
  | suspend payload => "yieldval(" ++ payload.text ++ ")"
  | statement s => s.text

def isSuspension : NodeKind → Bool
  | suspend _ => true
  | _ => false

end NodeKind

namespace Node

def fragment (node : Node) : String := node.kind.fragment

def isSuspension (node : Node) : Bool := node.kind.isSuspension

def onward (node : Node) : List NodeId := if node.isSuspension then [] else node.successors

end Node

/-- Nodes in the order of their creation, and the one where the body starts. -/
structure Graph where
  nodes : Array Node := #[]
  head : Option NodeId := none

namespace Graph

def size (graph : Graph) : Nat := graph.nodes.size

def node? (graph : Graph) (id : NodeId) : Option Node := graph.nodes[id]?

def node (graph : Graph) (id : NodeId) : Except Failure Node :=
  match graph.node? id with
  | some node => .ok node
  | none => .error { fault := .graph (.noNode id) }

def successors (graph : Graph) (id : NodeId) : List NodeId :=
  match graph.node? id with
  | some node => node.successors
  | none => []

def targets (graph : Graph) : List NodeId := (List.range graph.size).flatMap graph.successors

def push (graph : Graph) (node : Node) : Graph := { graph with nodes := graph.nodes.push node }

def modify (graph : Graph) (id : NodeId) (change : Node → Node) : Graph :=
  { graph with nodes := graph.nodes.modify id change }

/-- A bad target is noticed before the edge is drawn. -/
def connect (graph : Graph) (source target : NodeId) : Except Failure Graph := do
  let _ ← graph.node target
  let _ ← graph.node source
  return graph.modify source fun node => { node with successors := node.successors ++ [target] }

end Graph
end Resumable
