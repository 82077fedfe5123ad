import Resumable.Graph.Search
import Resumable.Scope.Variable

/-! Indented text of a graph. Nodes are labelled in the order they are first printed. -/

namespace Resumable

/-- A line of an outline: a node in full, the label of one that stands in full above, an edge that
leads nowhere, or a heading. -/
inductive OutlineLine where
  | full (depth label : Nat) (node : Node)
  | again (depth label : Nat)
  | missing (depth : Nat) (id : NodeId)
  | heading (depth : Nat) (text : String)

namespace OutlineLine

def indent (depth : Nat) : String := String.join (List.replicate depth "  ")

def labelText (label : Nat) : String := "[" ++ toString label ++ "]"

def readsText (table : VariableTable) (node : Node) : String :=
  if node.reads.isEmpty then ""
  else
    let names := (node.reads.filterMap table.get?).map Variable.localName
    "  reads(" ++ ", ".intercalate names ++ ")"

def declaresText (table : VariableTable) (node : Node) : String :=
  match node.declares.bind table.get? with
  | none => ""
  | some var => "  declares(" ++ var.localName ++ " @ " ++ var.slot.stack.text ++ "[" ++
      toString var.slot.index ++ "])"

def render (table : VariableTable) : OutlineLine → String
  | full depth label node => indent depth ++ labelText label ++ " " ++ node.kind.name ++ " " ++
      node.fragment ++ readsText table node ++ declaresText table node ++ "\n"
  | again depth label => indent depth ++ "-> " ++ labelText label ++ "\n"
  | missing depth id => indent depth ++ "<missing node " ++ nodeText id ++ ">\n"
  | heading depth text => indent depth ++ text ++ "\n"

end OutlineLine

namespace Graph

/-- What is still to be written: a node at a depth, or a heading above one. -/
inductive Pending where
  | node (depth : Nat) (id : NodeId)
  | heading (depth : Nat) (text : String)

def branchName : Nat → String
  | 0 => "then:"
  | 1 => "else:"
  | _ => "extra:"

def pendingAfter (node : Node) (depth : Nat) : List Pending :=
  match node.kind with
  | .branch .. => node.successors.zipIdx.flatMap fun (id, index) =>
      [.heading (depth + 1) (branchName index), .node (depth + 2) id]
  | .suspend _ => node.successors.flatMap fun id => [.heading depth "resume:", .node depth id]
  | _ => node.successors.map fun id => .node depth id

/-- The lines of all that is pending, where the label of a printed node is its place among them. -/
def outlineFrom (graph : Graph) (printed : List NodeId) (pending : List Pending) :
    List OutlineLine :=
  match pending with
  | [] => []
  | .heading depth text :: rest => .heading depth text :: graph.outlineFrom printed rest
  | .node depth id :: rest =>
    if _known : id ∈ printed then .again depth (printed.idxOf id) :: graph.outlineFrom printed rest
    else
      match _present : graph.node? id with
      | none => .missing depth id :: graph.outlineFrom printed rest
      | some node => .full depth printed.length node ::
          graph.outlineFrom (printed ++ [id]) (pendingAfter node depth ++ rest)
termination_by (graph.unseen printed, pending.length)
decreasing_by
  · right; simp
  · right; simp
  · right; simp
  · left; exact unseen_append_lt _present _known

/-- The lines of several roots one after the other, with one numbering. -/
def outlineRoots (graph : Graph) (roots : List (NodeId × Nat)) : List OutlineLine :=
  graph.outlineFrom [] (roots.map fun (id, depth) => .node depth id)

def renderOutline (table : VariableTable) (lines : List OutlineLine) : String :=
  String.join (lines.map (OutlineLine.render table))

def outline (graph : Graph) (table : VariableTable) : String :=
  match graph.head with
  | none => "<empty>\n"
  | some head => renderOutline table (graph.outlineRoots [(head, 0)])

end Graph
end Resumable
