import Resumable.Proofs.Lowering.Changes
import Resumable.Proofs.Lowering.WellFormed
import Resumable.Proofs.Program.Payloads

/-! Suspensions survive lowering: each becomes one node, in the order of the text, and no other
node has one in its fragment. -/

namespace Resumable

open Symbols Lower

theorem findSome?_congr {α β : Type} {f g : α → Option β} {xs : List α}
    (same : ∀ x ∈ xs, f x = g x) : xs.findSome? f = xs.findSome? g := by
  induction xs with
  | nil => rfl
  | cons x rest ih =>
      rw [List.findSome?_cons, List.findSome?_cons, same x List.mem_cons_self,
        ih fun y later => same y (List.mem_cons_of_mem _ later)]

mutual

/-- The second expression is the first with the local name of each reference in the place of its name.
Names of called functions and whole function literals stay. -/
inductive Expr.RenamedBy (local? : String → Option String) : Expr → Expr → Prop
  | literal (value : Value) (mark : Mark) : RenamedBy local? (.literal value mark) (.literal value mark)
  | reference {name localName : String} (mark : Mark) (means : local? name = some localName) :
    RenamedBy local? (.reference name mark) (.reference localName mark)
  | binary {left left' right right' : Expr} (op : BinaryOp) (mark : Mark) :
    RenamedBy local? left left' → RenamedBy local? right right' →
    RenamedBy local? (.binary op left right mark) (.binary op left' right' mark)
  | unary {operand operand' : Expr} (op : UnaryOp) (mark : Mark) :
    RenamedBy local? operand operand' →
    RenamedBy local? (.unary op operand mark) (.unary op operand' mark)
  | call {args args' : List Expr} (name : String) (mark : Mark) :
    AllRenamedBy local? args args' → RenamedBy local? (.call name args mark) (.call name args' mark)
  | suspend {payload payload' : Expr} (mark : Mark) : RenamedBy local? payload payload' →
    RenamedBy local? (.suspend payload mark) (.suspend payload' mark)
  | function (params : List Parameter) (yieldType : DataType) (body : Stmt) (mark : Mark) :
    RenamedBy local? (.function params yieldType body mark) (.function params yieldType body mark)

inductive Expr.AllRenamedBy (local? : String → Option String) : List Expr → List Expr → Prop
  | nil : AllRenamedBy local? [] []
  | cons {e e' : Expr} {rest rest' : List Expr} : RenamedBy local? e e' →
    AllRenamedBy local? rest rest' → AllRenamedBy local? (e :: rest) (e' :: rest')

end

namespace Symbols

/-- What a name means among the first `known` variables: its innermost declaration. -/
def resolveAmong? (symbols : Symbols) (known : Nat) (scope : ScopeId) (name : String) :
    Option Variable :=
  ((symbols.scopes.outward scope).findSome? fun outer =>
    (symbols.scopes.scope? outer).bind fun entry =>
      (entry.declared.filter fun found => found.2 < known).lookup name).bind
    symbols.variables.get?

variable {symbols before after : Symbols} {scope fresh : Nat}

theorem resolveAmong?_size (sound : symbols.Sound) (name : String) :
    symbols.resolveAmong? symbols.variables.size scope name = symbols.resolve? scope name := by
  have here : ∀ outer, ((symbols.scopes.scope? outer).bind fun entry =>
      (entry.declared.filter fun found => found.2 < symbols.variables.size).lookup name) =
        symbols.scopes.declaredHere? outer name := by
    intro outer
    rw [ScopeChain.declaredHere?]
    cases present : symbols.scopes.scope? outer with
    | none => rfl
    | some entry =>
        have all : (entry.declared.filter fun found => found.2 < symbols.variables.size) =
            entry.declared := List.filter_eq_self.mpr fun found member =>
          decide_eq_true (sound.declared outer entry present found member)
        rw [Option.bind_some, Option.bind_some, all]
  rw [resolveAmong?, funext here]
  rfl

theorem Extends.resolveAmong?_eq (extends_ : Extends fresh before after) (sound : before.Sound)
    (sound' : after.Sound) (inside : scope < before.scopes.size) {known : Nat}
    (early : known ≤ before.variables.size) (name : String) :
    after.resolveAmong? known scope name = before.resolveAmong? known scope name := by
  have same : ∀ outer : Nat, outer ∈ before.scopes.outward scope →
      ((after.scopes.scope? outer).bind fun entry =>
        (entry.declared.filter fun found => found.2 < known).lookup name) =
      ((before.scopes.scope? outer).bind fun entry =>
        (entry.declared.filter fun found => found.2 < known).lookup name) := by
    intro outer around
    have below := Nat.lt_of_le_of_lt (ScopeChain.le_of_mem_outward sound.rooted around) inside
    obtain ⟨entry, present⟩ := ScopeChain.scope?_isSome below
    obtain ⟨more, later, _, new⟩ := extends_.scopes outer entry present
    have late : (more.filter fun found => found.2 < known) = [] :=
      List.filter_eq_nil_iff.mpr fun found member impossible =>
        Nat.lt_irrefl _ (Nat.lt_of_lt_of_le (of_decide_eq_true impossible)
          (Nat.le_trans early (new found member)))
    rw [present, later, Option.bind_some, Option.bind_some, List.filter_append, late,
      List.append_nil]
  rw [resolveAmong?, resolveAmong?, extends_.outward_eq sound sound' inside, findSome?_congr same]
  refine Option.bind_congr fun var found => ?_
  obtain ⟨outer, _, here⟩ := List.exists_of_findSome?_eq_some found
  obtain ⟨entry, _, listed⟩ := Option.bind_eq_some_iff.mp here
  obtain ⟨_, _, split, _⟩ := List.lookup_eq_some_iff.mp listed
  have member : (name, var) ∈ entry.declared.filter fun found => found.2 < known := by simp [split]
  have below := of_decide_eq_true (List.mem_filter.mp member).2
  exact extends_.get?_eq (Nat.lt_of_lt_of_le below early)

/-- A payload that a node in a scope hands out under local names. -/
structure Hands (symbols : Symbols) (found : Nat × Expr) (given : ScopeId × Expr) : Prop where
  early : found.1 ≤ symbols.variables.size
  inside : given.1 < symbols.scopes.size
  renamed : found.2.RenamedBy
    (fun name => (symbols.resolveAmong? found.1 given.1 name).map Variable.localName) given.2

theorem Hands.extend {found : Nat × Expr} {given : ScopeId × Expr}
    (hands : before.Hands found given) (extends_ : Extends fresh before after)
    (sound : before.Sound) (sound' : after.Sound) : after.Hands found given where
  early := Nat.le_trans hands.early extends_.count
  inside := Nat.lt_of_lt_of_le hands.inside extends_.sizes
  renamed := by
    have same := fun name : String =>
      extends_.resolveAmong?_eq sound sound' hands.inside hands.early name
    simp only [same]
    exact hands.renamed

end Symbols

section Rename

variable {symbols : Symbols} {scope : ScopeId}

mutual

theorem Expr.renamedBy_rename (e : Expr) {e' : Expr} {found found' : List VarId}
    (done : e.mapReferences (symbols.rename scope) found = .ok (e', found')) :
    e.RenamedBy (fun name => (symbols.resolve? scope name).map Variable.localName) e' := by
  match e with
  | .literal value mark =>
      obtain ⟨rfl, rfl⟩ := pure_ok done
      exact .literal value mark
  | .function params yieldType body mark =>
      obtain ⟨rfl, rfl⟩ := pure_ok done
      exact .function params yieldType body mark
  | .reference name mark =>
      obtain ⟨localName, _, renamed, last⟩ := bind_ok done
      obtain ⟨rfl, rfl⟩ := pure_ok last
      unfold Symbols.rename at renamed
      cases resolved : symbols.resolve? scope name with
      | none => simp [resolved] at renamed
      | some info =>
          simp only [resolved, Except.ok.injEq, Prod.mk.injEq] at renamed
          exact .reference mark (by rw [resolved, ← renamed.1]; rfl)
  | .binary op left right mark =>
      obtain ⟨left', _, first, rest⟩ := bind_ok done
      obtain ⟨right', _, second, last⟩ := bind_ok rest
      obtain ⟨rfl, rfl⟩ := pure_ok last
      exact .binary op mark (left.renamedBy_rename first) (right.renamedBy_rename second)
  | .unary op operand mark =>
      obtain ⟨operand', _, first, last⟩ := bind_ok done
      obtain ⟨rfl, rfl⟩ := pure_ok last
      exact .unary op mark (operand.renamedBy_rename first)
  | .call name args mark =>
      obtain ⟨args', _, first, last⟩ := bind_ok done
      obtain ⟨rfl, rfl⟩ := pure_ok last
      exact .call name mark (Expr.allRenamedBy_rename args first)
  | .suspend payload mark =>
      obtain ⟨payload', _, first, last⟩ := bind_ok done
      obtain ⟨rfl, rfl⟩ := pure_ok last
      exact .suspend mark (payload.renamedBy_rename first)

theorem Expr.allRenamedBy_rename (es : List Expr) {es' : List Expr} {found found' : List VarId}
    (done : Expr.mapAllReferences (symbols.rename scope) es found = .ok (es', found')) :
    Expr.AllRenamedBy (fun name => (symbols.resolve? scope name).map Variable.localName) es es' := by
  match es with
  | [] =>
      obtain ⟨rfl, rfl⟩ := pure_ok done
      exact .nil
  | e :: rest =>
      obtain ⟨e', _, first, others⟩ := bind_ok done
      obtain ⟨rest', _, second, last⟩ := bind_ok others
      obtain ⟨rfl, rfl⟩ := pure_ok last
      exact .cons (e.renamedBy_rename first) (Expr.allRenamedBy_rename rest second)

end

theorem Lower.resolve_renames {before after : Draft} {e e' : Expr} {reads reads' : List VarId}
    (done : resolve scope e reads before = .ok ((e', reads'), after)) :
    e.RenamedBy (fun name => (before.symbols.resolve? scope name).map Variable.localName) e' := by
  unfold resolve at done
  cases resolved : before.symbols.resolveExpr scope e with
  | error => simp [resolved] at done
  | ok pair =>
      simp only [resolved, Except.ok.injEq, Prod.mk.injEq] at done
      obtain ⟨⟨rfl, _⟩, _⟩ := done
      exact e.renamedBy_rename resolved

end Rename

def NodeKind.payload? : NodeKind → Option Expr
  | suspend payload => some payload
  | _ => none

/-- What a suspension hands out, with the scope that it stands in. -/
def Node.handed? (node : Node) : Option (ScopeId × Expr) :=
  node.kind.payload?.map (node.scope, ·)

namespace Graph

def handed (graph : Graph) : List (ScopeId × Expr) := graph.nodes.toList.filterMap Node.handed?

variable {graph graph' : Graph}

theorem handed_push (graph : Graph) (node : Node) :
    (graph.push node).handed = graph.handed ++ node.handed?.toList := by
  rw [handed, push, Array.toList_push, List.filterMap_append, handed]
  cases found : node.handed? <;> simp [found]

theorem handed_connect {source target : NodeId}
    (connected : graph.connect source target = .ok graph') : graph'.handed = graph.handed := by
  have same : ∀ (nodes : List Node) (index : Nat) (change : Node → Node),
      (∀ node, (change node).handed? = node.handed?) →
      (nodes.modify index change).filterMap Node.handed? = nodes.filterMap Node.handed? := by
    intro nodes index change unchanged
    induction nodes generalizing index with
    | nil => cases index <;> rfl
    | cons node rest ih =>
        cases index with
        | zero => simp only [List.modify_zero_cons, List.filterMap_cons, unchanged]
        | succ index => simp only [List.modify_succ_cons, List.filterMap_cons, ih]
  rw [connect_eq connected, handed, modify, Array.toList_modify]
  exact same _ _ _ fun _ => rfl

end Graph

namespace Lower

variable {before middle after : Draft} {scope : Nat}

theorem addNode_handed {kind : NodeKind} {location : Location} {reads : List VarId}
    {declares : Option VarId} {id : NodeId}
    (done : addNode kind scope location reads declares before = .ok (id, after)) :
    after.graph.handed = before.graph.handed ++ (kind.payload?.map (scope, ·)).toList := by
  obtain ⟨node, uid, _, kind_, scope_, _, _, _, _, graph, _⟩ := addNode_ok done
  rw [graph, Graph.handed_push, Node.handed?, kind_, scope_]

theorem addNode_quiet {kind : NodeKind} {location : Location} {reads : List VarId}
    {declares : Option VarId} {id : NodeId} (quiet : kind.payload? = none)
    (done : addNode kind scope location reads declares before = .ok (id, after)) :
    after.graph.handed = before.graph.handed := by
  rw [addNode_handed done, quiet]
  exact List.append_nil _

theorem statementPiece_quiet {s : Stmt} {reads : List VarId} {declares : Option VarId}
    {piece : Piece} (done : statementPiece s scope reads declares before = .ok (piece, after)) :
    after.graph.handed = before.graph.handed := by
  obtain ⟨id, _, made, done⟩ := bind_ok done
  obtain ⟨_, rfl⟩ := pure_ok done
  exact addNode_quiet rfl made

theorem connect_quiet {source target : NodeId}
    (done : connect source target before = .ok ((), after)) :
    after.graph.handed = before.graph.handed :=
  Graph.handed_connect (connect_ok done).1

theorem openBranch_quiet {condition : Expr} {location : Location} {ends : NodeId × NodeId}
    (done : openBranch condition scope location before = .ok (ends, after)) :
    after.graph.handed = before.graph.handed := by
  obtain ⟨_, _, done⟩ := check_ok done
  obtain ⟨_, _, got, done⟩ := bind_ok done
  cases got
  obtain ⟨_, _, done⟩ := check_ok done
  obtain ⟨_, resolving, inCondition, done⟩ := bind_ok done
  obtain ⟨_, _, toMerge, done⟩ := bind_ok done
  obtain ⟨_, _, toFork, done⟩ := bind_ok done
  obtain ⟨_, rfl⟩ := pure_ok done
  rw [addNode_quiet rfl toFork, addNode_quiet rfl toMerge, (resolve_same inCondition).1]

theorem joinBranches_quiet {fork merge : NodeId} {first second piece : Piece}
    (done : joinBranches fork merge first second before = .ok (piece, after)) :
    after.graph.handed = before.graph.handed := by
  obtain ⟨_, _, toThen, done⟩ := bind_ok done
  obtain ⟨_, _, toElse, done⟩ := bind_ok done
  obtain ⟨_, _, fromThen, done⟩ := bind_ok done
  obtain ⟨_, _, fromElse, done⟩ := bind_ok done
  obtain ⟨_, rfl⟩ := pure_ok done
  rw [connect_quiet fromElse, connect_quiet fromThen, connect_quiet toElse, connect_quiet toThen]

/-- The payloads that lowering finds, each handed out by one of the nodes that it adds. -/
def HandsOut (found : List (Nat × Expr)) (before after : Draft) : Prop :=
  ∃ given, after.graph.handed = before.graph.handed ++ given ∧
    List.Forall₂ after.symbols.Hands found given

namespace HandsOut

variable {found more : List (Nat × Expr)}

theorem nothing (quiet : after.graph.handed = before.graph.handed) : HandsOut [] before after :=
  ⟨[], quiet.trans (List.append_nil _).symm, .nil⟩

theorem append {fresh : ScopeId} (first : HandsOut found before middle)
    (second : HandsOut more middle after) (sound : middle.symbols.Sound)
    (sound' : after.symbols.Sound) (extends_ : Extends fresh middle.symbols after.symbols) :
    HandsOut (found ++ more) before after := by
  obtain ⟨given, here, each⟩ := first
  obtain ⟨behind, there, each'⟩ := second
  refine ⟨given ++ behind, by rw [there, here, List.append_assoc], ?_⟩
  exact List.rel_append (each.imp fun _ _ hands => hands.extend extends_ sound sound') each'

theorem around {start last : Draft} (hands : HandsOut found before after)
    (quiet : before.graph.handed = start.graph.handed)
    (quiet' : last.graph.handed = after.graph.handed) (symbols : last.symbols = after.symbols) :
    HandsOut found start last := by
  obtain ⟨given, here, each⟩ := hands
  exact ⟨given, by rw [quiet', here, quiet], symbols ▸ each⟩

end HandsOut
end Lower

section Statements

variable {context : LoweringContext} {before after : Draft} {scope : Nat} {piece : Piece}

theorem Expr.payloads_of_plain {e : Expr} (plain : e.requirePlain = .ok ()) (known : Nat) :
    e.plain = true ∧ e.payloads known = [] := by
  have quiet := Expr.requirePlain_ok plain
  exact ⟨Expr.plain_iff.mpr quiet, (e.payloads_eq_nil known).mpr quiet.1⟩

theorem Lower.whole_hands {construct : Construct} {s : Stmt} (sound : before.symbols.Sound)
    (inside : scope < before.symbols.scopes.size)
    (done : whole context construct s scope before = .ok (piece, after)) :
    s.plain = true ∧ HandsOut (s.payloads before.symbols.variables.size) before after := by
  have calm : s.suspends = false := by
    rw [whole] at done
    split at done
    · cases done
    · rename_i calm
      exact Bool.eq_false_iff.mpr calm
  obtain ⟨s', reads, warned, middle, graph, symbols, resolving, done⟩ := whole_ok done
  have wholly := s.resolveWhole_ok (symbols ▸ sound) (symbols ▸ inside) resolving
  obtain ⟨namings, agrees⟩ := Agrees.exists_namings (symbols ▸ sound) scope s.free
  refine ⟨(Stmt.Renamed.plain s (wholly.renamed namings [] agrees)).1, ?_⟩
  rw [(s.payloads_eq_nil _).mpr calm]
  exact .nothing (by rw [statementPiece_quiet done, wholly.graph, graph])

theorem Lower.suspension_hands {payload : Expr} {location : Location}
    (sound : before.symbols.Sound) (inside : scope < before.symbols.scopes.size)
    (done : suspension context payload scope location before = .ok (piece, after)) :
    payload.plain = true ∧
      HandsOut ((before.symbols.variables.size, payload) ::
        payload.payloads before.symbols.variables.size) before after := by
  obtain ⟨_, plain, done⟩ := check_ok done
  obtain ⟨_, _, got, done⟩ := bind_ok done
  cases got
  obtain ⟨_, _, done⟩ := check_ok done
  obtain ⟨⟨payload', reads⟩, middle, inPayload, done⟩ := bind_ok done
  obtain ⟨id, _, made, done⟩ := bind_ok done
  obtain ⟨_, rfl⟩ := pure_ok done
  obtain ⟨quiet, nothing⟩ := Expr.payloads_of_plain plain before.symbols.variables.size
  obtain ⟨graph, symbols⟩ := resolve_same inPayload
  obtain ⟨_, _, _, _, uid, counted⟩ := addNode_site made [] 0 0
  rw [symbols] at counted
  have here : before.symbols.Hands (before.symbols.variables.size, payload) (scope, payload') := by
    refine ⟨Nat.le_refl _, inside, ?_⟩
    simp only [resolveAmong?_size sound]
    exact resolve_renames inPayload
  refine ⟨quiet, [(scope, payload')], ?_, ?_⟩
  · rw [addNode_handed made, graph]
    rfl
  · rw [nothing, counted]
    exact .cons (here.extend ((Extends.refl scope before.symbols).recount uid) sound
      (sound.recount uid)) .nil

/-- A statement that was lowered in a scope opened for it. -/
structure Lower.Enters (s : Stmt) (scope child : Nat) (before opened after : Draft) : Prop where
  soundChild : opened.symbols.Sound
  openChild : Open child opened.symbols
  graph : opened.graph = before.graph
  known : opened.symbols.variables.size = before.symbols.variables.size
  sound : after.symbols.Sound
  open_ : Open scope after.symbols
  extends_ : Extends before.symbols.scopes.size before.symbols after.symbols
  count : after.symbols.variables.size = before.symbols.variables.size + s.declarations.length

theorem Stmt.lower_enters (context : LoweringContext) (s : Stmt) {opened : Draft} {child : Nat}
    (sound : before.symbols.Sound) (open_ : Open scope before.symbols)
    (opening : openScope scope before = .ok (child, opened))
    (done : s.lower context child opened = .ok (piece, after)) :
    Enters s scope child before opened after := by
  obtain ⟨entered, graph⟩ := openScope_ok sound open_.inside opening
  obtain ⟨s', route, lowers⟩ := s.lower_ok context entered.sound (entered.open_ open_) done
  have left := lowers.leave sound open_.inside entered graph
  have count := (s.lower_does (Draft.counted_building.lowering context) child).changes _ _ _ done
  exact ⟨entered.sound, entered.open_ open_, graph, entered.count, left.sound,
    open_.around left.extends_ sound left.sound (Nat.le_refl _), left.extends_,
    by rw [count, entered.count]⟩

theorem Lower.branch_hands {condition condition' : Expr} {thenBranch elseBranch : Stmt}
    {fork merge thenScope elseScope : Nat} {reads : List VarId}
    {opened thenStart thenDraft elseStart elseDraft : Draft} {thenPiece elsePiece : Piece}
    (forked : Forked scope condition condition' fork merge reads before opened)
    (quiet : opened.graph.handed = before.graph.handed)
    (inThen : Enters thenBranch scope thenScope opened thenStart thenDraft)
    (inElse : Enters elseBranch scope elseScope thenDraft elseStart elseDraft)
    (handsThen : HandsOut (thenBranch.payloads thenStart.symbols.variables.size) thenStart thenDraft)
    (handsElse : HandsOut (elseBranch.payloads elseStart.symbols.variables.size) elseStart elseDraft)
    (joining : joinBranches fork merge thenPiece elsePiece elseDraft = .ok (piece, after)) :
    HandsOut (thenBranch.payloads before.symbols.variables.size ++ elseBranch.payloads
      (before.symbols.variables.size + thenBranch.declarations.length)) before after := by
  obtain ⟨uid, counted⟩ := forked.symbols
  have known : opened.symbols.variables.size = before.symbols.variables.size := by
    rw [counted]
    rfl
  rw [inThen.known, known] at handsThen
  rw [inElse.known, inThen.count, known] at handsElse
  have first := handsThen.around (inThen.graph ▸ quiet) rfl rfl
  have second := handsElse.around (congrArg Graph.handed inElse.graph) rfl rfl
  obtain ⟨_, symbols, _⟩ := joinBranches_ok joining
  exact (first.append second inThen.sound inElse.sound inElse.extends_).around rfl
    (joinBranches_quiet joining) symbols

mutual

/-- A statement is lowered if its suspensions stand where they may, and each becomes one node. -/
theorem Stmt.lower_hands (context : LoweringContext) (s : Stmt) {before after : Draft}
    {scope : Nat} {piece : Piece} (sound : before.symbols.Sound) (open_ : Open scope before.symbols)
    (done : s.lower context scope before = .ok (piece, after)) :
    s.orderly = true ∧ HandsOut (s.payloads before.symbols.variables.size) before after := by
  match s with
  | .declare name type mutable value location =>
      obtain ⟨_, plain, done⟩ := check_ok done
      obtain ⟨_, _, got, done⟩ := bind_ok done
      cases got
      obtain ⟨_, _, done⟩ := check_ok done
      obtain ⟨_, _, inValue, done⟩ := bind_ok done
      obtain ⟨_, _, made, done⟩ := bind_ok done
      obtain ⟨quiet, nothing⟩ := Expr.payloads_of_plain plain before.symbols.variables.size
      refine ⟨quiet, ?_⟩
      rw [Stmt.payloads, nothing]
      exact .nothing (by rw [statementPiece_quiet done, (declare_adds made).1,
        (resolve_same inValue).1])
  | .assign target value location =>
      obtain ⟨_, plain, done⟩ := check_ok done
      obtain ⟨_, _, inTarget, done⟩ := bind_ok done
      obtain ⟨_, _, inValue, done⟩ := bind_ok done
      obtain ⟨_, same⟩ := resolveTarget_ok sound inTarget
      rw [same] at inValue
      obtain ⟨quiet, nothing⟩ := Expr.payloads_of_plain plain before.symbols.variables.size
      refine ⟨quiet, ?_⟩
      rw [Stmt.payloads, nothing]
      exact .nothing (by rw [statementPiece_quiet done, (resolve_same inValue).1])
  | .evaluate value location =>
      cases payload? : value.payload? with
      | some payload =>
          cases value with
          | suspend inner mark =>
              cases payload?
              exact suspension_hands sound open_.inside done
          | _ => cases payload?
      | none =>
          rw [Stmt.lower, payload?] at done
          obtain ⟨_, plain, done⟩ := check_ok done
          obtain ⟨_, _, inValue, done⟩ := bind_ok done
          obtain ⟨quiet, nothing⟩ := Expr.payloads_of_plain plain before.symbols.variables.size
          refine ⟨by rwa [Stmt.orderly, payload?], ?_⟩
          rw [Stmt.payloads, nothing]
          exact .nothing (by rw [statementPiece_quiet done, (resolve_same inValue).1])
  | .branch condition thenBranch none location =>
      obtain ⟨⟨fork, merge⟩, opened, forking, done⟩ := bind_ok done
      obtain ⟨thenScope, _, openThen, done⟩ := bind_ok done
      obtain ⟨thenPiece, thenDraft, inThen, done⟩ := bind_ok done
      obtain ⟨elseScope, elseStart, openElse, done⟩ := bind_ok done
      obtain ⟨elsePiece, elseDraft, inElse, done⟩ := bind_ok done
      obtain ⟨condition', reads, forked⟩ := openBranch_ok sound forking
      obtain ⟨quiet, nothing⟩ := Expr.payloads_of_plain forked.plain before.symbols.variables.size
      have first := thenBranch.lower_enters context (forked.sound sound) (forked.open_ open_)
        openThen inThen
      -- a missing branch is lowered like an empty block
      have second := (Stmt.block [] location).lower_enters context first.sound first.open_
        openElse inElse
      obtain ⟨orderly, hands⟩ := thenBranch.lower_hands context first.soundChild first.openChild
        inThen
      have skips : HandsOut ((Stmt.block [] location).payloads elseStart.symbols.variables.size)
          elseStart elseDraft :=
        .nothing (statementPiece_quiet inElse)
      refine ⟨by simp [Stmt.orderly, quiet, orderly], ?_⟩
      rw [Stmt.payloads, nothing, List.nil_append]
      have all := branch_hands forked (openBranch_quiet forking) first second hands skips done
      rwa [Stmt.payloads, Stmt.allPayloads, List.append_nil] at all
  | .branch condition thenBranch (some elseBranch) location =>
      obtain ⟨⟨fork, merge⟩, opened, forking, done⟩ := bind_ok done
      obtain ⟨thenScope, _, openThen, done⟩ := bind_ok done
      obtain ⟨thenPiece, thenDraft, inThen, done⟩ := bind_ok done
      obtain ⟨elseScope, _, openElse, done⟩ := bind_ok done
      obtain ⟨elsePiece, elseDraft, inElse, done⟩ := bind_ok done
      obtain ⟨condition', reads, forked⟩ := openBranch_ok sound forking
      obtain ⟨quiet, nothing⟩ := Expr.payloads_of_plain forked.plain before.symbols.variables.size
      have first := thenBranch.lower_enters context (forked.sound sound) (forked.open_ open_)
        openThen inThen
      have second := elseBranch.lower_enters context first.sound first.open_ openElse inElse
      obtain ⟨orderly, hands⟩ := thenBranch.lower_hands context first.soundChild first.openChild
        inThen
      obtain ⟨orderly', hands'⟩ := elseBranch.lower_hands context second.soundChild
        second.openChild inElse
      refine ⟨by simp [Stmt.orderly, quiet, orderly, orderly'], ?_⟩
      rw [Stmt.payloads, nothing, List.nil_append]
      exact branch_hands forked (openBranch_quiet forking) first second hands hands' done
  | .block body location => exact Stmt.lowerBlock_hands context body sound open_ done
  | .loop .. | .select .. | .attempt .. => exact whole_hands sound open_.inside done

theorem Stmt.lowerBlock_hands (context : LoweringContext) (body : List Stmt)
    {before after : Draft} {scope : Nat} {piece : Piece} {location : Location}
    (sound : before.symbols.Sound) (open_ : Open scope before.symbols)
    (done : Stmt.lowerBlock context scope location body before = .ok (piece, after)) :
    Stmt.allOrderly body = true ∧
      HandsOut (Stmt.allPayloads before.symbols.variables.size body) before after := by
  match body with
  | [] => exact ⟨rfl, .nothing (statementPiece_quiet done)⟩
  | [only] =>
      obtain ⟨orderly, hands⟩ := only.lower_hands context sound open_ done
      rw [Stmt.allPayloads, Stmt.allPayloads, List.append_nil]
      exact ⟨by simp [Stmt.allOrderly, orderly], hands⟩
  | first :: second :: rest =>
      obtain ⟨child, opened, opening, done⟩ := bind_ok done
      obtain ⟨piece', middle, inFirst, done⟩ := bind_ok done
      obtain ⟨last, _, inRest, done⟩ := bind_ok done
      obtain ⟨rfl, rfl⟩ := pure_ok done
      obtain ⟨entered, graph⟩ := openScope_ok sound open_.inside opening
      have openChild := entered.open_ open_
      obtain ⟨first', route, lowers⟩ := first.lower_ok context entered.sound openChild inFirst
      have openMiddle := lowers.grown.open_ entered.sound openChild
      obtain ⟨_, _, all⟩ := Stmt.lowerAfter_ok context (second :: rest) lowers.lays
        lowers.grown.sound openMiddle inRest
      obtain ⟨orderly, hands⟩ := first.lower_hands context entered.sound openChild inFirst
      obtain ⟨orderly', hands'⟩ := Stmt.lowerAfter_hands context (second :: rest) lowers.lays
        lowers.grown.sound openMiddle inRest
      have count :=
        (first.lower_does (Draft.counted_building.lowering context) child).changes _ _ _ inFirst
      rw [count, entered.count] at hands'
      rw [entered.count] at hands
      refine ⟨by rw [Stmt.allOrderly, orderly, orderly']; rfl, ?_⟩
      rw [Stmt.allPayloads]
      exact (hands.append hands' lowers.grown.sound all.sound all.extends_).around
        (congrArg Graph.handed graph) rfl rfl

theorem Stmt.lowerAfter_hands (context : LoweringContext) (rest : List Stmt)
    {start before after : Draft} {scope : Nat} {first last last' : NodeId} {route : Route}
    (lays : Lays scope start before ⟨first, last⟩ route) (sound : before.symbols.Sound)
    (open_ : Open scope before.symbols)
    (done : Stmt.lowerAfter context scope last rest before = .ok (last', after)) :
    Stmt.allOrderly rest = true ∧
      HandsOut (Stmt.allPayloads before.symbols.variables.size rest) before after := by
  match rest with
  | [] =>
      obtain ⟨_, rfl⟩ := pure_ok done
      exact ⟨rfl, .nothing rfl⟩
  | s :: rest =>
      obtain ⟨piece, middle, inFirst, done⟩ := bind_ok done
      obtain ⟨_, linked, link, done⟩ := bind_ok done
      obtain ⟨s', part, lowers⟩ := s.lower_ok context sound open_ inFirst
      obtain ⟨_, symbols⟩ := connect_ok link
      have sound' : linked.symbols.Sound := symbols ▸ lowers.grown.sound
      have open' : Open scope linked.symbols := symbols ▸ lowers.grown.open_ sound open_
      have both := lays.append lowers.lays sound lowers.grown.sound lowers.grown.extends_ link
      obtain ⟨_, _, all⟩ := Stmt.lowerAfter_ok context rest both sound' open' done
      obtain ⟨orderly, hands⟩ := s.lower_hands context sound open_ inFirst
      obtain ⟨orderly', hands'⟩ := Stmt.lowerAfter_hands context rest both sound' open' done
      have count := (s.lower_does (Draft.counted_building.lowering context) scope).changes _ _ _ inFirst
      rw [symbols, count] at hands'
      refine ⟨by rw [Stmt.allOrderly, orderly, orderly']; rfl, ?_⟩
      rw [Stmt.allPayloads]
      exact (hands.around rfl (connect_quiet link) symbols).append hands' sound' all.sound
        all.extends_

end

end Statements
end Resumable
