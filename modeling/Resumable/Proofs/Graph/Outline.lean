import Resumable.Graph.Outline
import Resumable.Proofs.Graph.Paths
import Resumable.Proofs.Graph.Search

/-! What the outline of a graph shows. It is the drawing of a tree whose nodes in full are those that
the head leads to, in the order in which a walk finds them, with one entry for every edge. -/

namespace Resumable.Graph

/-- What stands in an outline for the id that an edge leads to: the node in full with an entry for
each of its edges, the label of a node that stands in full elsewhere, or a gap. -/
inductive Drawing where
  | full (id : NodeId) (node : Node) (edges : List Drawing)
  | again (id : NodeId)
  | missing (id : NodeId)

/-- The heading above an edge, where edges out of such a node have one, and its depth. -/
def edgeHeading (kind : NodeKind) (depth index : Nat) : List (Nat × String) :=
  match kind, index with
  | .branch .., 0 => [(depth + 1, "then:")]
  | .branch .., 1 => [(depth + 1, "else:")]
  | .branch .., _ => [(depth + 1, "extra:")]
  | .suspend _, _ => [(depth, "resume:")]
  | _, _ => []

def edgeDepth (kind : NodeKind) (depth : Nat) : Nat :=
  match kind with
  | .branch .. => depth + 2
  | _ => depth

namespace Drawing

def target : Drawing → NodeId
  | full id .. => id
  | again id => id
  | missing id => id

mutual

/-- The nodes that stand in full, in the order of their lines. -/
def ids : Drawing → List NodeId
  | full id _ edges => id :: allIds edges
  | again _ => []
  | missing _ => []

def allIds : List Drawing → List NodeId
  | [] => []
  | drawing :: rest => drawing.ids ++ allIds rest

end

mutual

/-- A drawing tells the truth about a graph below the nodes that stand in full above it. A node stands
in full where it is reached first, and an edge that leads to a node above leads to its label. -/
def Sound (graph : Graph) (above : List NodeId) : Drawing → Prop
  | full id node edges => id ∉ above ∧ graph.node? id = some node ∧
      edges.map target = node.successors ∧ AllSound graph (above ++ [id]) edges
  | again id => id ∈ above
  | missing id => graph.node? id = none

def AllSound (graph : Graph) (above : List NodeId) : List Drawing → Prop
  | [] => True
  | drawing :: rest => drawing.Sound graph above ∧ AllSound graph (above ++ drawing.ids) rest

end

mutual

/-- The lines of a drawing, where the label of a node is its place among those shown. The entry of an
edge stands below the heading of the edge. -/
def lines (shown : List NodeId) (depth : Nat) : Drawing → List OutlineLine
  | full id node edges => .full depth (shown.idxOf id) node ::
      edgeLines shown node.kind depth 0 edges
  | again id => [.again depth (shown.idxOf id)]
  | missing id => [.missing depth id]

def edgeLines (shown : List NodeId) (kind : NodeKind) (depth index : Nat) :
    List Drawing → List OutlineLine
  | [] => []
  | edge :: rest =>
    (edgeHeading kind depth index).map (fun heading => .heading heading.1 heading.2) ++
      (edge.lines shown (edgeDepth kind depth) ++ edgeLines shown kind depth (index + 1) rest)

end

/-- The blanks in front of a line. -/
def margin (depth : Nat) : String := String.ofList (List.replicate (2 * depth) ' ')

mutual

/-- What the lines of a drawing say. A node in full begins with its label and is described behind it,
an edge to a node above points to its label, and a gap names the id. -/
def texts (table : VariableTable) (shown : List NodeId) (depth : Nat) : Drawing → List String
  | full id node edges =>
    (margin depth ++ "[" ++ toString (shown.idxOf id) ++ "] " ++ node.kind.name ++ " " ++
      node.fragment ++ OutlineLine.readsText table node ++ OutlineLine.declaresText table node) ::
        edgeTexts table shown node.kind depth 0 edges
  | again id => [margin depth ++ "-> [" ++ toString (shown.idxOf id) ++ "]"]
  | missing id => [margin depth ++ "<missing node #" ++ toString id ++ ">"]

def edgeTexts (table : VariableTable) (shown : List NodeId) (kind : NodeKind)
    (depth index : Nat) : List Drawing → List String
  | [] => []
  | edge :: rest =>
    (edgeHeading kind depth index).map (fun heading => margin heading.1 ++ heading.2) ++
      (edge.texts table shown (edgeDepth kind depth) ++
        edgeTexts table shown kind depth (index + 1) rest)

end
end Drawing

def edgesPending (kind : NodeKind) (depth index : Nat) : List NodeId → List Pending
  | [] => []
  | id :: rest =>
    (edgeHeading kind depth index).map (fun heading => .heading heading.1 heading.2) ++
      .node (edgeDepth kind depth) id :: edgesPending kind depth (index + 1) rest

theorem flatMap_zipIdx_eq {kind : NodeKind} {depth : Nat} {entry : NodeId × Nat → List Pending}
    (same : ∀ id index, entry (id, index) =
      (edgeHeading kind depth index).map (fun heading => .heading heading.1 heading.2) ++
        [.node (edgeDepth kind depth) id]) (ids : List NodeId) (index : Nat) :
    (ids.zipIdx index).flatMap entry = edgesPending kind depth index ids := by
  induction ids generalizing index with
  | nil => rfl
  | cons id rest ih =>
      rw [List.zipIdx_cons, List.flatMap_cons, same, ih, edgesPending, List.append_assoc]
      rfl

theorem pendingAfter_eq (node : Node) (depth : Nat) :
    pendingAfter node depth = edgesPending node.kind depth 0 node.successors := by
  have each (entry : NodeId → List Pending) : node.successors.flatMap entry =
      node.successors.zipIdx.flatMap fun edge => entry edge.1 := by
    conv_lhs => rw [← List.zipIdx_map_fst 0 node.successors]
    exact List.flatMap_map ..
  unfold pendingAfter
  cases kind : node.kind with
  | branch condition merge =>
      refine flatMap_zipIdx_eq (fun id index => ?_) node.successors 0
      rcases index with _ | _ | index <;> rfl
  | suspend payload => exact (each _).trans (flatMap_zipIdx_eq (fun _ _ => rfl) node.successors 0)
  | merge | statement =>
      refine (List.map_eq_flatMap.trans (each _)).trans ?_
      exact flatMap_zipIdx_eq (fun _ _ => rfl) node.successors 0

section Walk

variable {graph : Graph} {printed : List NodeId} {id : NodeId} {node : Node}
  {rest : List Pending}

theorem outlineFrom_missing (fresh : id ∉ printed) (absent : graph.node? id = none) (depth : Nat) :
    graph.outlineFrom printed (.node depth id :: rest) =
      .missing depth id :: graph.outlineFrom printed rest := by
  rw [outlineFrom, dif_neg fresh]
  split
  · rfl
  · rename_i present
    cases absent.symm.trans present

theorem outlineFrom_known (known : id ∈ printed) (depth : Nat) :
    graph.outlineFrom printed (.node depth id :: rest) =
      .again depth (printed.idxOf id) :: graph.outlineFrom printed rest := by
  rw [outlineFrom, dif_pos known]

theorem outlineFrom_fresh (fresh : id ∉ printed) (present : graph.node? id = some node)
    (depth : Nat) : graph.outlineFrom printed (.node depth id :: rest) =
      .full depth printed.length node :: graph.outlineFrom (printed ++ [id])
        (edgesPending node.kind depth 0 node.successors ++ rest) := by
  rw [outlineFrom, dif_neg fresh]
  split
  · rename_i absent
    cases absent.symm.trans present
  · rename_i other found
    obtain rfl := Option.some.inj (present.symm.trans found)
    rw [pendingAfter_eq]

theorem outlineFrom_headings (headings : List (Nat × String)) :
    graph.outlineFrom printed (headings.map (fun heading => .heading heading.1 heading.2) ++ rest) =
      headings.map (fun heading => .heading heading.1 heading.2) ++
        graph.outlineFrom printed rest := by
  induction headings with
  | nil => rfl
  | cons heading more ih =>
      rw [List.map_cons, List.cons_append, outlineFrom, ih]
      rfl

end Walk

/-- A drawing is what the outline and the walk make of an id when some nodes were printed before. -/
structure Drawn (graph : Graph) (printed : List NodeId) (drawing : Drawing) : Prop where
  walked : ∀ stack, graph.discover printed (drawing.target :: stack) =
    graph.discover (printed ++ drawing.ids) stack
  sound : drawing.Sound graph printed
  outlined : ∀ shown, printed ++ drawing.ids <+: shown → ∀ depth rest,
    graph.outlineFrom printed (.node depth drawing.target :: rest) =
      drawing.lines shown depth ++ graph.outlineFrom (printed ++ drawing.ids) rest

/-- Drawings are what the outline and the walk make of the edges out of a node. -/
structure AllDrawn (graph : Graph) (printed : List NodeId) (edges : List Drawing) : Prop where
  walked : ∀ stack, graph.discover printed (edges.map Drawing.target ++ stack) =
    graph.discover (printed ++ Drawing.allIds edges) stack
  sound : Drawing.AllSound graph printed edges
  outlined : ∀ shown, printed ++ Drawing.allIds edges <+: shown → ∀ kind depth index rest,
    graph.outlineFrom printed (edgesPending kind depth index (edges.map Drawing.target) ++ rest) =
      Drawing.edgeLines shown kind depth index edges ++
        graph.outlineFrom (printed ++ Drawing.allIds edges) rest

section Drawn

variable {graph : Graph} {printed : List NodeId} {id : NodeId} {node : Node}

theorem AllDrawn.nil : graph.AllDrawn printed [] := by
  constructor <;> simp [Drawing.allIds, Drawing.AllSound, Drawing.edgeLines, edgesPending]

theorem AllDrawn.cons {first : Drawing} {rest : List Drawing} (drawn : graph.Drawn printed first)
    (others : graph.AllDrawn (printed ++ first.ids) rest) :
    graph.AllDrawn printed (first :: rest) where
  walked := fun stack => by
    rw [List.map_cons, List.cons_append, drawn.walked, others.walked, List.append_assoc]
    rfl
  sound := ⟨drawn.sound, others.sound⟩
  outlined := by
    intro shown before kind depth index behind
    rw [Drawing.allIds, ← List.append_assoc] at before ⊢
    rw [List.map_cons, edgesPending, List.append_assoc, List.cons_append, outlineFrom_headings,
      drawn.outlined shown ((List.prefix_append ..).trans before), others.outlined shown before,
      Drawing.edgeLines]
    simp only [List.append_assoc]

theorem Drawn.again (known : id ∈ printed) : graph.Drawn printed (.again id) where
  walked := fun stack => by
    rw [Drawing.ids, List.append_nil]
    exact discover_known known
  sound := known
  outlined := by
    intro shown before depth rest
    rw [Drawing.ids, List.append_nil] at before ⊢
    obtain ⟨behind, rfl⟩ := before
    rw [Drawing.lines, List.idxOf_append_of_mem known]
    exact outlineFrom_known known depth

theorem Drawn.missing (fresh : id ∉ printed) (absent : graph.node? id = none) :
    graph.Drawn printed (.missing id) where
  walked := fun stack => by
    rw [Drawing.ids, List.append_nil]
    exact discover_missing absent
  sound := absent
  outlined := by
    intro shown _ depth rest
    rw [Drawing.ids, List.append_nil]
    exact outlineFrom_missing fresh absent depth

theorem Drawn.full {edges : List Drawing} (fresh : id ∉ printed)
    (present : graph.node? id = some node) (each : edges.map Drawing.target = node.successors)
    (drawn : graph.AllDrawn (printed ++ [id]) edges) :
    graph.Drawn printed (.full id node edges) := by
  have ids : printed ++ (Drawing.full id node edges).ids =
      printed ++ [id] ++ Drawing.allIds edges := by
    rw [Drawing.ids, List.append_assoc, List.singleton_append]
  constructor
  · intro stack
    rw [ids, ← drawn.walked, each]
    exact discover_fresh fresh present
  · exact ⟨fresh, present, each, drawn.sound⟩
  · intro shown before depth rest
    rw [ids] at before ⊢
    have label : shown.idxOf id = printed.length := by
      obtain ⟨behind, rfl⟩ := before
      rw [List.append_assoc, List.append_assoc, List.idxOf_append_of_notMem fresh,
        List.singleton_append, List.idxOf_cons_self, Nat.add_zero]
    have edgesDrawn := drawn.outlined shown before node.kind depth 0 rest
    rw [each] at edgesDrawn
    rw [Drawing.lines, label, List.cons_append, ← edgesDrawn]
    exact outlineFrom_fresh fresh present depth

theorem exists_allDrawn
    (below : ∀ more id, ∃ drawing, drawing.target = id ∧ graph.Drawn (printed ++ more) drawing)
    (ids : List NodeId) :
    ∃ edges : List Drawing, edges.map Drawing.target = ids ∧ graph.AllDrawn printed edges := by
  induction ids generalizing printed with
  | nil => exact ⟨[], rfl, .nil⟩
  | cons id rest ih =>
      obtain ⟨first, rfl, drawn⟩ := below [] id
      rw [List.append_nil] at drawn
      have behind : ∀ more id, ∃ drawing, drawing.target = id ∧
          graph.Drawn (printed ++ first.ids ++ more) drawing := fun more id => by
        rw [List.append_assoc]
        exact below (first.ids ++ more) id
      obtain ⟨others, rfl, allDrawn⟩ := ih behind
      exact ⟨first :: others, rfl, .cons drawn allDrawn⟩

/-- Whatever was printed before, an id is drawn. The induction is on the nodes not printed yet, of
which a node in full takes one. -/
theorem exists_drawn (graph : Graph) (printed : List NodeId) (id : NodeId) :
    ∃ drawing, drawing.target = id ∧ graph.Drawn printed drawing := by
  induction left : graph.unseen printed using Nat.strongRecOn generalizing printed id with
  | _ count ih =>
      subst left
      by_cases known : id ∈ printed
      · exact ⟨.again id, rfl, .again known⟩
      · cases present : graph.node? id with
        | none => exact ⟨.missing id, rfl, .missing known present⟩
        | some node =>
            have fewer := unseen_append_lt present known
            have below : ∀ more other, ∃ drawing, drawing.target = other ∧
                graph.Drawn (printed ++ [id] ++ more) drawing := fun more other =>
              ih _ (Nat.lt_of_le_of_lt (unseen_le_of_subset (List.subset_append_left _ more)) fewer)
                _ other rfl
            obtain ⟨edges, each, drawn⟩ := exists_allDrawn below node.successors
            exact ⟨.full id node edges, rfl, .full known present each drawn⟩

end Drawn

end Graph

namespace OutlineLine

theorem indent_eq_margin (depth : Nat) : indent depth = Graph.Drawing.margin depth := by
  have blanks : (Graph.Drawing.margin depth).toList = List.replicate (depth * 2) ' ' := by
    rw [Graph.Drawing.margin, String.toList_ofList, Nat.mul_comm]
  apply String.toList_inj.mp
  rw [blanks, indent, String.toList_join, List.flatMap_replicate]
  exact List.flatten_replicate_replicate (n := depth) (m := 2) (a := ' ')

/-- Nodes in full have the labels from `next` on in turn, and where only a label stands, a node in full
above has it. -/
def Numbered (next : Nat) : List OutlineLine → Prop
  | [] => True
  | full _ label _ :: rest => label = next ∧ Numbered (next + 1) rest
  | again _ label :: rest => label < next ∧ Numbered next rest
  | missing .. :: rest => Numbered next rest
  | heading .. :: rest => Numbered next rest

def full? : OutlineLine → Option (Nat × Node)
  | full _ label node => some (label, node)
  | _ => none

def isHeading : OutlineLine → Bool
  | heading .. => true
  | _ => false

theorem full?_headings (headings : List (Nat × String)) :
    (headings.map fun entry => heading entry.1 entry.2).filterMap full? = [] := by
  simp [full?]

theorem countP_headings (headings : List (Nat × String)) :
    (headings.map fun entry => heading entry.1 entry.2).countP (!·.isHeading) = 0 := by
  simp [List.countP_eq_zero, isHeading]

end OutlineLine

namespace Graph.Drawing

variable {graph : Graph} {shown : List NodeId}

mutual

theorem lines_full {above : List NodeId} (drawing : Drawing) (sound : drawing.Sound graph above)
    (depth : Nat) :
    ((drawing.lines shown depth).filterMap OutlineLine.full?).map (fun (label, node) =>
      (label, some node)) = drawing.ids.map fun id => (shown.idxOf id, graph.node? id) := by
  match drawing with
  | .full id node edges =>
      obtain ⟨-, present, -, inside⟩ := sound
      have here : (OutlineLine.full depth (shown.idxOf id) node).full? =
        some (shown.idxOf id, node) := rfl
      rw [lines, ids, List.filterMap_cons_some here, List.map_cons, List.map_cons, present,
        edgeLines_full edges inside]
  | .again id | .missing id => rfl

theorem edgeLines_full {above : List NodeId} (edges : List Drawing)
    (sound : AllSound graph above edges) (kind : NodeKind) (depth index : Nat) :
    ((edgeLines shown kind depth index edges).filterMap OutlineLine.full?).map (fun (label, node) =>
      (label, some node)) = (allIds edges).map fun id => (shown.idxOf id, graph.node? id) := by
  match edges with
  | [] => rfl
  | edge :: rest =>
      rw [edgeLines, allIds, List.filterMap_append, OutlineLine.full?_headings, List.nil_append,
        List.filterMap_append, List.map_append, List.map_append, edge.lines_full sound.1,
        edgeLines_full rest sound.2]

end

mutual

/-- Beside the line of its root a drawing has one line for every edge out of the nodes that it shows,
headings aside. -/
theorem lines_count {above : List NodeId} (drawing : Drawing) (sound : drawing.Sound graph above)
    (depth : Nat) :
    (drawing.lines shown depth).countP (!·.isHeading) =
      (drawing.ids.flatMap graph.successors).length + 1 := by
  match drawing with
  | .full id node edges =>
      obtain ⟨-, present, each, inside⟩ := sound
      have edgeCount : edges.length = (graph.successors id).length := by
        rw [successors_of_node? present, ← each, List.length_map]
      rw [lines, ids, List.countP_cons_of_pos rfl, edgeLines_count edges inside,
        List.flatMap_cons, List.length_append, edgeCount]
  | .again id | .missing id => rfl

theorem edgeLines_count {above : List NodeId} (edges : List Drawing)
    (sound : AllSound graph above edges) (kind : NodeKind) (depth index : Nat) :
    (edgeLines shown kind depth index edges).countP (!·.isHeading) =
      edges.length + ((allIds edges).flatMap graph.successors).length := by
  match edges with
  | [] => rfl
  | edge :: rest =>
      rw [edgeLines, allIds, List.countP_append, OutlineLine.countP_headings, List.countP_append,
        edge.lines_count sound.1, edgeLines_count rest sound.2, List.flatMap_append,
        List.length_append, List.length_cons]
      omega

end

mutual

theorem map_render_lines (table : VariableTable) (shown : List NodeId) (drawing : Drawing)
    (depth : Nat) : (drawing.lines shown depth).map (OutlineLine.render table) =
      (drawing.texts table shown depth).map (· ++ "\n") := by
  match drawing with
  | .full id node edges =>
      simp [lines, texts, OutlineLine.render, OutlineLine.labelText, OutlineLine.indent_eq_margin,
        map_render_edgeLines table shown edges, String.append_assoc]
  | .again id =>
      have arrow : "-> [" = "-> " ++ "[" := by decide
      simp [lines, texts, OutlineLine.render, OutlineLine.labelText, OutlineLine.indent_eq_margin,
        arrow, String.append_assoc, -String.reduceAppend]
  | .missing id =>
      have gap : "<missing node #" = "<missing node " ++ "#" := by decide
      have close : ">\n" = ">" ++ "\n" := by decide
      simp [lines, texts, OutlineLine.render, OutlineLine.indent_eq_margin, nodeText, gap, close,
        String.append_assoc, -String.reduceAppend]

theorem map_render_edgeLines (table : VariableTable) (shown : List NodeId) (edges : List Drawing)
    (kind : NodeKind) (depth index : Nat) :
    (edgeLines shown kind depth index edges).map (OutlineLine.render table) =
      (edgeTexts table shown kind depth index edges).map (· ++ "\n") := by
  match edges with
  | [] => rfl
  | edge :: rest =>
      simp [edgeLines, edgeTexts, map_render_lines table shown edge,
        map_render_edgeLines table shown rest, OutlineLine.render, OutlineLine.indent_eq_margin,
        Function.comp_def]

end
end Graph.Drawing

namespace Graph

theorem numbered_outlineFrom (graph : Graph) (printed : List NodeId) (pending : List Pending) :
    OutlineLine.Numbered printed.length (graph.outlineFrom printed pending) := by
  induction printed, pending using outlineFrom.induct graph with
  | case1 printed => simp [outlineFrom, OutlineLine.Numbered]
  | case2 printed depth text rest ih =>
      rw [outlineFrom]
      exact ih
  | case3 printed depth id rest known ih =>
      rw [outlineFrom_known known]
      exact ⟨List.idxOf_lt_length_of_mem known, ih⟩
  | case4 printed depth id rest fresh absent ih =>
      rw [outlineFrom_missing fresh absent]
      exact ih
  | case5 printed depth id rest fresh node present ih =>
      rw [outlineFrom_fresh fresh present, ← pendingAfter_eq]
      rw [List.length_append] at ih
      exact ⟨rfl, ih⟩

theorem map_idxOf_eq_zipIdx {ids : List NodeId} (distinct : ids.Nodup)
    (node? : NodeId → Option Node) :
    ids.map (fun id => (ids.idxOf id, node? id)) =
      ids.zipIdx.map fun (id, label) => (label, node? id) := by
  apply List.ext_getElem
  · simp
  · intro position inside _
    have below : position < ids.length := by simpa using inside
    simp [List.Nodup.idxOf_getElem distinct position below]

/-- What the outline of a graph shows is the drawing of a tree that tells the truth. Its nodes in full
are just those that the head leads to, each once and where it is reached first, and the label of a
node is its place among them. Below a node stands one entry for each of its edges, in order and below
the heading of the edge: the node that it leads to where that is reached first, else one line that
points to the label of the node above, or has the id if there is no such node. -/
theorem outline_drawing (graph : Graph) (table : VariableTable) :
    graph.reachable.Nodup ∧
    match graph.head with
    | none => graph.reachable = [] ∧ graph.outline table = "<empty>\n"
    | some head => ∃ drawing : Drawing, drawing.target = head ∧ drawing.ids = graph.reachable ∧
        drawing.Sound graph [] ∧
        graph.outline table = renderOutline table (drawing.lines graph.reachable 0) ∧
        graph.outline table =
          String.join ((drawing.texts table graph.reachable 0).map (· ++ "\n")) ∧
        OutlineLine.Numbered 0 (drawing.lines graph.reachable 0) ∧
        ((drawing.lines graph.reachable 0).filterMap OutlineLine.full?).map
            (fun (label, node) => (label, some node)) =
          graph.reachable.zipIdx.map (fun (id, label) => (label, graph.node? id)) ∧
        (drawing.lines graph.reachable 0).countP (!·.isHeading) =
          (graph.reachable.flatMap graph.successors).length + 1 := by
  have distinct := graph.reachable_nodup
  refine ⟨distinct, ?_⟩
  cases start : graph.head with
  | none =>
      refine ⟨?_, ?_⟩
      · rw [reachable, start]
      · rw [outline, start]
  | some head =>
      obtain ⟨drawing, rfl, drawn⟩ := graph.exists_drawn [] head
      have shown : drawing.ids = graph.reachable := by
        rw [reachable, start]
        exact ((drawn.walked []).trans (by rw [List.nil_append, discover])).symm
      have lines : graph.outlineRoots [(drawing.target, 0)] = drawing.lines graph.reachable 0 := by
        have outlined := drawn.outlined graph.reachable (shown ▸ List.prefix_rfl) 0 []
        rw [outlineFrom, List.append_nil] at outlined
        exact outlined
      have rendered : graph.outline table =
          renderOutline table (drawing.lines graph.reachable 0) := by
        rw [outline, start, ← lines]
      refine ⟨drawing, rfl, shown, drawn.sound, rendered, ?_, ?_, ?_, ?_⟩
      · rw [rendered, renderOutline, drawing.map_render_lines]
      · rw [← lines]
        exact graph.numbered_outlineFrom [] _
      · rw [drawing.lines_full drawn.sound, shown]
        exact map_idxOf_eq_zipIdx distinct graph.node?
      · rw [drawing.lines_count drawn.sound, shown]

end Resumable.Graph
