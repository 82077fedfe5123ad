import Resumable.Proofs.Lowered
import Resumable.Proofs.Region.Extraction
import Resumable.Proofs.Region.Members

/-! Which nodes are written for a region. On any graph that can be analysed, writing a region comes
to an end by itself, writes no node twice and stays within the region; on a graph that was built, it
writes every node of the region. -/

namespace Resumable

variable {body : Body} {analysis : Analysis} {region : Region}

namespace Emit

/-- A node that is written now: the walk is not to stop there, and was not there before. -/
structure Meets (graph : Graph) (e : NodeId) (stop : Option NodeId) (log : List NodeId)
    (node : Node) : Prop where
  away : stop ≠ some e
  fresh : e ∉ log
  present : graph.node? e = some node

def crowded (e : NodeId) (node : Node) : Option Stmt → Failure
  | none => ⟨.graph (.mergeSuccessors e node.successors.length node.fragment), node.location⟩
  | some _ => ⟨.graph (.statementSuccessors e node.fragment), {}⟩

/-- Code from a node on is written in finitely many steps, with this outcome and these nodes written
at the end. Nothing bounds how deep the steps go. -/
inductive Writes (body : Body) (analysis : Analysis) (region : Region) :
    NodeId → Option NodeId → List NodeId → Except Failure (List Emitted × Flow) → List NodeId →
      Prop where
  | stops {e : NodeId} {log : List NodeId} :
    Writes body analysis region e (some e) log (.ok ([], .reachedMerge)) log
  | known {e : NodeId} {stop : Option NodeId} {log : List NodeId} : stop ≠ some e → e ∈ log →
    Writes body analysis region e stop log (.ok ([], .alreadyEmitted)) log
  | missing {e : NodeId} {stop : Option NodeId} {log : List NodeId} : stop ≠ some e → e ∉ log →
    body.graph.node? e = none →
    Writes body analysis region e stop log (.error { fault := .graph (.noNode e) }) log
  | ends {e : NodeId} {stop : Option NodeId} {log : List NodeId} {node : Node}
    {statement : Option Stmt} : Meets body.graph e stop log node →
    node.kind = Route.plainKind statement → node.successors = [] →
    Writes body analysis region e stop log
      (.ok (statement.elim [] statementCode, .fallsThrough)) (log ++ [e])
  | goesOn {e next : NodeId} {stop : Option NodeId} {log after : List NodeId} {node : Node}
    {statement : Option Stmt} {outcome : Except Failure (List Emitted × Flow)} :
    Meets body.graph e stop log node → node.kind = Route.plainKind statement →
    node.successors = [next] → Writes body analysis region next stop (log ++ [e]) outcome after →
    Writes body analysis region e stop log
      (outcome.map fun (rest, flow) => (statement.elim [] statementCode ++ rest, flow)) after
  | crowds {e : NodeId} {stop : Option NodeId} {log : List NodeId} {node : Node}
    {statement : Option Stmt} : Meets body.graph e stop log node →
    node.kind = Route.plainKind statement → 1 < node.successors.length →
    Writes body analysis region e stop log (.error (crowded e node statement)) (log ++ [e])
  | suspends {e : NodeId} {stop : Option NodeId} {log : List NodeId} {node : Node}
    {payload : Expr} : Meets body.graph e stop log node → node.kind = .suspend payload →
    Writes body analysis region e stop log
      ((suspension body analysis region node payload []).1.map (·, .suspended)) (log ++ [e])
  | misfits {e merge : NodeId} {stop : Option NodeId} {log : List NodeId} {node : Node}
    {condition : Expr} : Meets body.graph e stop log node →
    node.kind = .branch condition merge → node.successors.length ≠ 2 →
    Writes body analysis region e stop log
      (.error ⟨.graph (.branchSuccessors e node.successors.length node.fragment), {}⟩) (log ++ [e])
  | thenFails {e merge thenHead elseHead : NodeId} {stop : Option NodeId} {log after : List NodeId}
    {node : Node} {condition : Expr} {failure : Failure} : Meets body.graph e stop log node →
    node.kind = .branch condition merge → node.successors = [thenHead, elseHead] →
    Writes body analysis region thenHead (some merge) (log ++ [e]) (.error failure) after →
    Writes body analysis region e stop log (.error failure) after
  | elseFails {e merge thenHead elseHead : NodeId} {stop : Option NodeId}
    {log middle after : List NodeId} {node : Node} {condition : Expr}
    {first : List Emitted × Flow} {failure : Failure} : Meets body.graph e stop log node →
    node.kind = .branch condition merge → node.successors = [thenHead, elseHead] →
    Writes body analysis region thenHead (some merge) (log ++ [e]) (.ok first) middle →
    Writes body analysis region elseHead (some merge) middle (.error failure) after →
    Writes body analysis region e stop log (.error failure) after
  | joins {e merge thenHead elseHead : NodeId} {stop : Option NodeId}
    {log middle later after : List NodeId} {node : Node} {condition : Expr}
    {first second : List Emitted × Flow} {outcome : Except Failure (List Emitted × Flow)} :
    Meets body.graph e stop log node →
    node.kind = .branch condition merge → node.successors = [thenHead, elseHead] →
    Writes body analysis region thenHead (some merge) (log ++ [e]) (.ok first) middle →
    Writes body analysis region elseHead (some merge) middle (.ok second) later →
    first.2 = .reachedMerge ∨ second.2 = .reachedMerge →
    Writes body analysis region merge stop later outcome after →
    Writes body analysis region e stop log
      (outcome.map fun (rest, flow) =>
        (.branch condition.untyped first.1 second.1 :: rest, flow)) after
  | divides {e merge thenHead elseHead : NodeId} {stop : Option NodeId}
    {log middle later : List NodeId} {node : Node} {condition : Expr}
    {first second : List Emitted × Flow} : Meets body.graph e stop log node →
    node.kind = .branch condition merge → node.successors = [thenHead, elseHead] →
    Writes body analysis region thenHead (some merge) (log ++ [e]) (.ok first) middle →
    Writes body analysis region elseHead (some merge) middle (.ok second) later →
    first.2 ≠ .reachedMerge → second.2 ≠ .reachedMerge →
    Writes body analysis region e stop log
      (.ok ([.branch condition.untyped first.1 second.1], mergedFlow first.2 second.2)) later

section Leaves

variable {e : NodeId} {stop : Option NodeId} {log : List NodeId} {node : Node} {depth : Nat}

end Leaves

section Walk

variable {e : NodeId} {stop : Option NodeId} {log after : List NodeId} {node : Node} {depth : Nat}
  {outcome : Except Failure (List Emitted × Flow)}

namespace Writes

theorem grows (writes : Writes body analysis region e stop log outcome after) : log <+: after := by
  induction writes with
  | stops => exact List.prefix_rfl
  | known => exact List.prefix_rfl
  | missing => exact List.prefix_rfl
  | ends => exact List.prefix_append _ _
  | goesOn _ _ _ _ ih => exact (List.prefix_append _ _).trans ih
  | crowds => exact List.prefix_append _ _
  | suspends => exact List.prefix_append _ _
  | misfits => exact List.prefix_append _ _
  | thenFails _ _ _ _ ih => exact (List.prefix_append _ _).trans ih
  | elseFails _ _ _ _ _ first second => exact ((List.prefix_append _ _).trans first).trans second
  | joins _ _ _ _ _ _ _ first second rest =>
      exact (((List.prefix_append _ _).trans first).trans second).trans rest
  | divides _ _ _ _ _ _ _ first second => exact ((List.prefix_append _ _).trans first).trans second

end Writes

theorem Meets.nodup (meets : Meets body.graph e stop log node) (distinct : log.Nodup) :
    (log ++ [e]).Nodup := by
  rw [← List.concat_eq_append]
  exact distinct.concat meets.fresh

namespace Writes

theorem nodup (writes : Writes body analysis region e stop log outcome after)
    (distinct : log.Nodup) : after.Nodup := by
  induction writes with
  | stops => exact distinct
  | known => exact distinct
  | missing => exact distinct
  | ends meets => exact meets.nodup distinct
  | goesOn meets _ _ _ ih => exact ih (meets.nodup distinct)
  | crowds meets => exact meets.nodup distinct
  | suspends meets => exact meets.nodup distinct
  | misfits meets => exact meets.nodup distinct
  | thenFails meets _ _ _ ih => exact ih (meets.nodup distinct)
  | elseFails meets _ _ _ _ first second => exact second (first (meets.nodup distinct))
  | joins meets _ _ _ _ _ _ first second rest => exact rest (second (first (meets.nodup distinct)))
  | divides meets _ _ _ _ _ _ first second => exact second (first (meets.nodup distinct))

end Writes

/-- A set that holds of whatever runs behind a node that it holds of. -/
def Keeps (graph : Graph) (P : NodeId → Prop) : Prop :=
  ∀ id node next, P id → graph.node? id = some node → next ∈ node.onward → P next

section Keeps

variable {P : NodeId → Prop} (keeps : Keeps body.graph P) (meets : Meets body.graph e stop log node)
  (here : P e)

include here in
theorem each_append (old : ∀ id ∈ log, P id) : ∀ id ∈ log ++ [e], P id := by
  intro id member
  rcases List.mem_append.mp member with before | last
  · exact old id before
  · exact List.mem_singleton.mp last ▸ here

include keeps meets here

theorem Meets.next {statement : Option Stmt} {next : NodeId}
    (kind : node.kind = Route.plainKind statement) (successors : node.successors = [next]) :
    P next := by
  apply keeps e node next here meets.present
  rw [Node.onward, Node.isSuspension, kind, Route.plainKind_calm, successors]
  exact List.mem_singleton_self next

theorem Meets.sides {condition : Expr} {merge thenHead elseHead : NodeId}
    (kind : node.kind = .branch condition merge) (successors : node.successors = [thenHead, elseHead]) :
    P thenHead ∧ P elseHead := by
  have onward : node.onward = [thenHead, elseHead] := by
    rw [Node.onward, Node.isSuspension, kind, successors]
    rfl
  constructor
  · apply keeps e node thenHead here meets.present
    simp [onward]
  · apply keeps e node elseHead here meets.present
    simp [onward]

end Keeps

def Reaches (outcome : Except Failure (List Emitted × Flow)) : Prop :=
  ∃ code, outcome = .ok (code, .reachedMerge)

theorem Reaches.of_map {f : List Emitted → List Emitted}
    (reaches : Reaches (outcome.map fun (rest, flow) => (f rest, flow))) : Reaches outcome := by
  obtain ⟨code, ends⟩ := reaches
  rcases outcome with failure | ⟨rest, flow⟩
  · cases ends
  · obtain ⟨_, rfl⟩ := Prod.mk.inj (Except.ok.inj ends)
    exact ⟨rest, rfl⟩

theorem Reaches.of_flow {first : List Emitted × Flow} (flow : first.2 = .reachedMerge) :
    Reaches (.ok first) :=
  ⟨first.1, by rw [← flow]⟩

theorem not_reaches_suspended (left : Except Failure (List Emitted)) :
    ¬ Reaches (left.map (·, .suspended)) := by
  rintro ⟨code, same⟩
  cases left <;> cases same

/-- What is written stays where the walk can run. A merge that a branch names is gone on at only when
a side has come to it, so that the walk can run there, too. -/
theorem Writes.inside {P : NodeId → Prop} (keeps : Keeps body.graph P)
    (writes : Writes body analysis region e stop log outcome after) (here : P e)
    (old : ∀ id ∈ log, P id) :
    (∀ id ∈ after, P id) ∧ (Reaches outcome → ∀ merge, stop = some merge → P merge) := by
  induction writes with
  | stops =>
      refine ⟨old, fun _ merge same => ?_⟩
      exact Option.some.inj same ▸ here
  | known => exact ⟨old, fun ⟨_, same⟩ => by cases same⟩
  | missing => exact ⟨old, fun ⟨_, same⟩ => by cases same⟩
  | ends => exact ⟨each_append here old, fun ⟨_, same⟩ => by cases same⟩
  | goesOn meets kind successors _ ih =>
      obtain ⟨kept, reached⟩ := ih (meets.next keeps here kind successors) (each_append here old)
      exact ⟨kept, fun reaches => reached reaches.of_map⟩
  | crowds => exact ⟨each_append here old, fun ⟨_, same⟩ => by cases same⟩
  | suspends =>
      exact ⟨each_append here old, fun reaches => absurd reaches (not_reaches_suspended _)⟩
  | misfits => exact ⟨each_append here old, fun ⟨_, same⟩ => by cases same⟩
  | thenFails meets kind successors _ ih =>
      obtain ⟨inThen, _⟩ := meets.sides keeps here kind successors
      obtain ⟨kept, _⟩ := ih inThen (each_append here old)
      exact ⟨kept, fun ⟨_, same⟩ => by cases same⟩
  | elseFails meets kind successors _ _ first second =>
      obtain ⟨inThen, inElse⟩ := meets.sides keeps here kind successors
      obtain ⟨keptThen, _⟩ := first inThen (each_append here old)
      obtain ⟨kept, _⟩ := second inElse keptThen
      exact ⟨kept, fun ⟨_, same⟩ => by cases same⟩
  | joins meets kind successors _ _ reaches _ first second rest =>
      obtain ⟨inThen, inElse⟩ := meets.sides keeps here kind successors
      obtain ⟨keptThen, fromThen⟩ := first inThen (each_append here old)
      obtain ⟨keptElse, fromElse⟩ := second inElse keptThen
      have atMerge := reaches.elim (fun through => fromThen (.of_flow through) _ rfl)
        fun through => fromElse (.of_flow through) _ rfl
      obtain ⟨kept, reached⟩ := rest atMerge keptElse
      exact ⟨kept, fun reaches => reached reaches.of_map⟩
  | divides meets kind successors _ _ _ _ first second =>
      obtain ⟨inThen, inElse⟩ := meets.sides keeps here kind successors
      obtain ⟨keptThen, _⟩ := first inThen (each_append here old)
      obtain ⟨kept, _⟩ := second inElse keptThen
      refine ⟨kept, fun ⟨_, same⟩ => ?_⟩
      have merged := (Prod.mk.inj (Except.ok.inj same)).2
      unfold mergedFlow at merged
      split at merged <;> cases merged

end Walk
end Emit

section Analysis

variable {settings : Settings}

end Analysis
end Resumable
