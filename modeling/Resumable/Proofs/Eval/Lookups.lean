import Resumable.Proofs.Eval.Twin

/-! What a run looks up. A statement and its resolved form are run side by side. Each name that the
one comes to look up stands beside the local name that the other looks up in its place, with the
environments of both at that point. -/

namespace Resumable

/-- Names that a run comes to look up in one environment, and those that the run of the resolved
form looks up in their places. -/
structure Lookup where
  names : List String
  locals : List String
  env : Env
  mirror : Env

def Expr.lookup (e e' : Expr) (session mirror : Session) : Lookup :=
  ⟨e.references, e'.references, session.env, mirror.env⟩

def Lookup.astray (session mirror : Session) : Lookup := ⟨[""], [], session.env, mirror.env⟩

def Session.pushed (session : Session) : Session := { session with env := session.env.push }

/-- Where a handler starts: in a scope of its own among those there were before the body. -/
def Session.handled (before after : Session) : Session :=
  { after with env := (after.env.keepOuter before.env.length).push }

def Exec.loopLookups (condition condition' : Expr) (body body' : Exec Unit)
    (lookups : Session → Session → List Lookup) : Nat → Session → Session → List Lookup
  | 0, session, mirror => [condition.lookup condition' session mirror]
  | rounds + 1, session, mirror => condition.lookup condition' session mirror ::
    match condition.evalCondition session.env with
    | .ok true => lookups session.pushed mirror.pushed ++
      match inScope body session with
      | (.ok _, after) => loopLookups condition condition' body body' lookups rounds after
          (inScope body' mirror).2
      | (.error _, _) => []
    | _ => []

mutual

/-- What a statement looks up when it is run, in the order of the run. Where the other tree has not
the same form, something is looked up that never agrees. -/
def Stmt.lookups : Stmt → Stmt → Session → Session → List Lookup
  | .declare _ _ _ value _, .declare _ _ _ value' _, session, mirror =>
    [value.lookup value' session mirror]
  | .assign target value _, .assign target' value' _, session, mirror =>
    [value.lookup value' session mirror, ⟨[target], [target'], session.env, mirror.env⟩]
  | .evaluate value _, .evaluate value' _, session, mirror => [value.lookup value' session mirror]
  | .branch condition thenBranch none _, .branch condition' thenBranch' none _, session, mirror =>
    condition.lookup condition' session mirror ::
      match condition.evalCondition session.env with
      | .ok true => thenBranch.lookups thenBranch' session.pushed mirror.pushed
      | _ => []
  | .branch condition thenBranch (some elseBranch) _,
      .branch condition' thenBranch' (some elseBranch') _, session, mirror =>
    condition.lookup condition' session mirror ::
      match condition.evalCondition session.env with
      | .ok true => thenBranch.lookups thenBranch' session.pushed mirror.pushed
      | .ok false => elseBranch.lookups elseBranch' session.pushed mirror.pushed
      | .error _ => []
  | .block body _, .block body' _, session, mirror =>
    Stmt.allLookups body body' session.pushed mirror.pushed
  | .loop condition body _, .loop condition' body' _, session, mirror =>
    Exec.loopLookups condition condition' body.exec body'.exec (body.lookups body')
      Exec.loopLimit session mirror
  | .select scrutinee arms _, .select scrutinee' arms' _, session, mirror =>
    scrutinee.lookup scrutinee' session mirror ::
      match scrutinee.eval session.env with
      | .ok value => Arm.lookups value arms arms' session mirror
      | .error _ => []
  | .attempt body handler _, .attempt body' handler' _, session, mirror =>
    body.lookups body' session.pushed mirror.pushed ++
      match Exec.inScope body.exec session with
      | (.ok _, _) => []
      | (.error _, after) => handler.lookups handler' (session.handled after)
          (mirror.handled (Exec.inScope body'.exec mirror).2)
  | _, _, session, mirror => [.astray session mirror]

def Stmt.allLookups : List Stmt → List Stmt → Session → Session → List Lookup
  | [], [], _, _ => []
  | s :: rest, s' :: rest', session, mirror =>
    s.lookups s' session mirror ++
      match s.exec session with
      | (.ok _, after) => Stmt.allLookups rest rest' after (s'.exec mirror).2
      | (.error _, _) => []
  | _, _, session, mirror => [.astray session mirror]

def Arm.lookups (scrutinee : Value) : List Arm → List Arm → Session → Session → List Lookup
  | [], [], _, _ => []
  | .mk none body :: _, .mk none body' :: _, session, mirror =>
    body.lookups body' session.pushed mirror.pushed
  | .mk (some pattern) body :: rest, .mk (some pattern') body' :: rest', session, mirror =>
    pattern.lookup pattern' session mirror ::
      match pattern.eval session.env with
      | .ok value =>
        if value.equal scrutinee then body.lookups body' session.pushed mirror.pushed
        else Arm.lookups scrutinee rest rest' session mirror
      | .error _ => []
  | _, _, session, mirror => [.astray session mirror]

end

/-- Environments with their entries side by side. A naming lists the entries of a scope with the
names they have in the one and in the other; no two of them have the same local name. -/
structure Env.Beside (namings : List Naming) (env mirror : Env) : Prop where
  names : env.names = namings.map (·.map Prod.fst)
  locals : mirror.names = namings.map (·.map Prod.snd)
  distinct : (Naming.locals namings).Nodup

/-- Each name finds the entry that stands beside the one of its local name. -/
def Lookup.Agrees (lookup : Lookup) : Prop :=
  ∃ namings, Env.Beside namings lookup.env lookup.mirror ∧
    List.Forall₂ (fun name localName => Naming.find? name namings = some localName ∧
      ∃ value, lookup.env.get? name = some value ∧ lookup.mirror.get? localName = some value)
      lookup.names lookup.locals

theorem Placed.names {namings : List Naming} {source target : Env}
    (placed : Placed namings source target) : source.names = namings.map (·.map Prod.fst) := by
  have scopes := placed.scopes
  clear placed
  induction scopes with
  | nil => rfl
  | cons head _ ih =>
      rw [Env.names, List.map_cons, List.map_cons, head.1]
      exact congrArg _ ih

theorem Naming.names_define {inner : Naming} {outer : List Naming} {env : Env} {localName : String}
    (locals : env.names = (inner :: outer).map (·.map Prod.snd))
    (fresh : localName ∉ Naming.locals (inner :: outer)) (name : String) (value : Value) :
    (env.define localName value).names =
      ((inner ++ [(name, localName)]) :: outer).map (·.map Prod.snd) := by
  cases env with
  | nil => cases locals
  | cons scope rest =>
      have here : scope.map Prod.fst = inner.map Prod.snd := (List.cons.inj locals).1
      have behind : Env.names rest = outer.map (·.map Prod.snd) := (List.cons.inj locals).2
      have absent : localName ∉ scope.map Prod.fst := by
        rw [here]
        exact fun member => fresh (List.mem_append_left _ member)
      rw [Env.names_define absent, here, behind]
      simp

mutual

theorem Expr.Renamed.references {namings : List Naming} (e : Expr) {e' : Expr}
    (renamed : e.Renamed namings e') :
    List.Forall₂ (fun name localName => Naming.find? name namings = some localName) e.references
      e'.references := by
  match e with
  | .literal .. =>
      rw [renamed.literal]
      exact .nil
  | .reference .. =>
      obtain ⟨localName, found, rfl⟩ := renamed.reference
      exact .cons found .nil
  | .binary _ left right _ =>
      obtain ⟨left', right', inLeft, inRight, rfl⟩ := renamed.binary
      exact List.rel_append (Expr.Renamed.references left inLeft)
        (Expr.Renamed.references right inRight)
  | .unary _ operand _ =>
      obtain ⟨operand', inOperand, rfl⟩ := renamed.unary
      have inner := Expr.Renamed.references operand inOperand
      exact inner
  | .call _ args _ =>
      obtain ⟨args', inArgs, rfl⟩ := renamed.call
      have inner := Expr.RenamedAll.references args inArgs
      exact inner
  | .suspend .. => exact renamed.not_suspend.elim
  | .function .. => exact renamed.not_function.elim

theorem Expr.RenamedAll.references {namings : List Naming} (es : List Expr) {es' : List Expr}
    (renamed : Expr.RenamedAll namings es es') :
    List.Forall₂ (fun name localName => Naming.find? name namings = some localName)
      (Expr.allReferences es) (Expr.allReferences es') := by
  match es with
  | [] =>
      rw [renamed.nil]
      exact .nil
  | e :: rest =>
      obtain ⟨e', rest', inFirst, inRest, rfl⟩ := renamed.cons
      exact List.rel_append (Expr.Renamed.references e inFirst)
        (Expr.RenamedAll.references rest inRest)

end

/-- Two sessions in step whose scopes stand side by side. -/
structure Mirrored (loud : Bool) (namings : List Naming) (source target : Session) : Prop where
  paired : Paired loud namings source target
  locals : target.env.names = namings.map (·.map Prod.snd)

namespace Mirrored

variable {loud : Bool} {namings outer : List Naming} {inner : Naming} {source target : Session}
  {made changed : List String} {code code' : Exec Unit}

theorem quiet (mirrored : Mirrored loud namings source target) :
    Mirrored false namings source target :=
  ⟨mirrored.paired.quiet, mirrored.locals⟩

theorem pushed (mirrored : Mirrored loud namings source target) :
    Mirrored loud ([] :: namings) source.pushed target.pushed :=
  ⟨mirrored.paired.push, congrArg (List.cons []) mirrored.locals⟩

theorem agrees (mirrored : Mirrored loud namings source target) {names locals : List String}
    (found : List.Forall₂ (fun name localName => Naming.find? name namings = some localName) names
      locals) : Lookup.Agrees ⟨names, locals, source.env, target.env⟩ := by
  have placed := mirrored.paired.placed
  exact ⟨namings, ⟨placed.names, mirrored.locals, placed.distinct⟩,
    found.imp fun _ _ here => ⟨here, placed.get?_eq here⟩⟩

theorem lookup_agrees (mirrored : Mirrored loud namings source target) {e e' : Expr}
    (renamed : e.Renamed namings e') : (e.lookup e' source target).Agrees :=
  mirrored.agrees (Expr.Renamed.references e renamed)

theorem inScope (mirrored : Mirrored loud namings source target) (some_ : namings ≠ [])
    (alike : Exec.Alike loud namings code code') (behind : Exec.Inner made changed code')
    (fresh : ∀ name ∈ made, name ∉ Naming.locals namings) :
    Mirrored loud namings (Exec.inScope code source).2 (Exec.inScope code' target).2 := by
  have twin := Exec.inScope_twin some_ alike behind fresh mirrored.paired
  have kept := Exec.inScope_kept behind mirrored.paired.open_
  exact ⟨twin.paired mirrored.paired.heard, kept.names_eq.trans mirrored.locals⟩

theorem handled (mirrored : Mirrored loud namings source target) (some_ : namings ≠ [])
    (alike : Exec.Alike loud namings code code') (behind : Exec.Inner made changed code')
    (fresh : ∀ name ∈ made, name ∉ Naming.locals namings) :
    Mirrored loud ([] :: namings) (source.handled (Exec.inScope code source).2)
      (target.handled (Exec.inScope code' target).2) := by
  obtain ⟨left, right⟩ := Exec.inScope_lengths some_ alike behind fresh mirrored.paired
  rw [Session.handled, Session.handled, Env.keepOuter_length left, Env.keepOuter_length right]
  exact (mirrored.inScope some_ alike behind fresh).pushed

/-- A statement that was run to its end leaves the scopes side by side, with the name that it
declared. -/
theorem exec (mirrored : Mirrored loud (inner :: outer) source target) {s s' : Stmt}
    (renamed : s.Renamed loud outer inner s') (done : (s.exec source).1 = .ok ()) :
    Mirrored loud (inner.after s s' :: outer) (s.exec source).2 (s'.exec target).2 := by
  obtain ⟨naming, twin, reached⟩ := s.exec_twin_after renamed mirrored.paired
  rw [reached (.inl done)] at twin
  refine ⟨twin.paired mirrored.paired.heard, ?_⟩
  have open_ := mirrored.paired.open_
  have locals := mirrored.locals
  cases s with
  | declare name type mutable value location =>
      obtain ⟨localName, value', inValue, _, unknown, rfl⟩ := renamed
      rw [Stmt.exec_declare] at done
      rw [Stmt.exec_declare, value.eval_renamed mirrored.paired.placed inValue]
      cases evaluated : value.eval source.env with
      | error => rw [evaluated] at done; cases done
      | ok v =>
          exact Naming.names_define locals unknown name v
  | _ =>
      have plain : s'.declared? = none := by simpa [Stmt.declared?] using renamed.declared?.symm
      exact (s'.exec_kept plain target open_).names_eq.trans locals

end Mirrored

theorem Exec.loop_agrees {namings : List Naming} {source target : Session}
    {made changed : List String} {code code' : Exec Unit} {condition condition' : Expr}
    {lookups : Session → Session → List Lookup} (some_ : namings ≠ [])
    (test : condition.Renamed namings condition') (alike : Exec.Alike false namings code code')
    (agree : ∀ source target, Mirrored false ([] :: namings) source target →
      ∀ lookup ∈ lookups source target, lookup.Agrees)
    (inner : Exec.Inner made changed code') (fresh : ∀ name ∈ made, name ∉ Naming.locals namings)
    (rounds : Nat) (mirrored : Mirrored false namings source target) :
    ∀ lookup ∈ Exec.loopLookups condition condition' code code' lookups rounds source target,
      lookup.Agrees := by
  induction rounds generalizing source target with
  | zero =>
      rw [Exec.loopLookups]
      exact List.forall_mem_singleton.mpr (mirrored.lookup_agrees test)
  | succ rounds ih =>
      rw [Exec.loopLookups]
      refine List.forall_mem_cons.mpr ⟨mirrored.lookup_agrees test, ?_⟩
      rcases condition.evalCondition source.env with _ | _ | _
      · exact List.forall_mem_nil _
      · exact List.forall_mem_nil _
      · have after := mirrored.inScope some_ alike inner fresh
        refine List.forall_mem_append.mpr ⟨agree _ _ mirrored.pushed, ?_⟩
        rcases left : Exec.inScope code source with ⟨_ | _, middle⟩
        · exact List.forall_mem_nil _
        · rw [left] at after
          exact ih after

mutual

/-- Whatever a statement looks up when it is run finds what its resolved form names. -/
theorem Stmt.lookups_agree (s : Stmt) {s' : Stmt} {loud : Bool} {outer : List Naming}
    {inner : Naming} {source target : Session} (renamed : s.Renamed loud outer inner s')
    (mirrored : Mirrored loud (inner :: outer) source target) :
    ∀ lookup ∈ s.lookups s' source target, lookup.Agrees := by
  have some_ : inner :: outer ≠ [] := List.cons_ne_nil _ _
  have fresh := Stmt.Renamed.bound_fresh s renamed
  match s with
  | .declare _ _ _ value _ =>
      obtain ⟨localName, value', inValue, _, _, rfl⟩ := renamed
      exact List.forall_mem_singleton.mpr (mirrored.lookup_agrees inValue)
  | .assign target value _ =>
      obtain ⟨localName, value', found, inValue, rfl⟩ := renamed
      exact List.forall_mem_cons.mpr ⟨mirrored.lookup_agrees inValue,
        List.forall_mem_singleton.mpr (mirrored.agrees (.cons found .nil))⟩
  | .evaluate value _ =>
      obtain ⟨value', inValue, rfl⟩ | ⟨_, payload, mark, payload', rfl, inPayload, rfl⟩ := renamed
      · exact List.forall_mem_singleton.mpr (mirrored.lookup_agrees inValue)
      · have found := mirrored.agrees (Expr.Renamed.references payload inPayload)
        exact List.forall_mem_singleton.mpr found
  | .branch condition thenBranch none _ =>
      obtain ⟨condition', thenBranch', inCondition, inThen, rfl⟩ := renamed
      rw [Stmt.lookups]
      refine List.forall_mem_cons.mpr ⟨mirrored.lookup_agrees inCondition, ?_⟩
      rcases condition.evalCondition source.env with _ | _ | _
      · exact List.forall_mem_nil _
      · exact List.forall_mem_nil _
      · exact thenBranch.lookups_agree inThen mirrored.pushed
  | .branch condition thenBranch (some elseBranch) _ =>
      obtain ⟨condition', thenBranch', elseBranch', inCondition, inThen, inElse, rfl⟩ := renamed
      rw [Stmt.lookups]
      refine List.forall_mem_cons.mpr ⟨mirrored.lookup_agrees inCondition, ?_⟩
      rcases condition.evalCondition source.env with _ | _ | _
      · exact List.forall_mem_nil _
      · exact elseBranch.lookups_agree inElse mirrored.pushed
      · exact thenBranch.lookups_agree inThen mirrored.pushed
  | .block body _ =>
      obtain ⟨body', inBody, rfl⟩ := renamed
      rw [Stmt.lookups]
      exact Stmt.allLookups_agree body inBody mirrored.pushed
  | .loop condition body _ =>
      obtain ⟨condition', body', inCondition, inBody, rfl⟩ := renamed
      have round : Exec.Alike false (inner :: outer) body.exec body'.exec :=
        fun _ _ paired => (body.exec_twin_after inBody paired).alike
      rw [Stmt.lookups]
      exact Exec.loop_agrees some_ inCondition round
        (fun _ _ mirrored => body.lookups_agree inBody mirrored) body'.exec_inner fresh
        Exec.loopLimit mirrored.quiet
  | .select scrutinee arms _ =>
      obtain ⟨scrutinee', arms', inScrutinee, inArms, rfl⟩ := renamed
      rw [Stmt.lookups]
      refine List.forall_mem_cons.mpr ⟨mirrored.lookup_agrees inScrutinee, ?_⟩
      cases scrutinee.eval source.env with
      | error => exact List.forall_mem_nil _
      | ok v => exact Arm.lookups_agree v arms inArms mirrored.quiet
  | .attempt body handler _ =>
      obtain ⟨body', handler', inBody, inHandler, rfl⟩ := renamed
      have first : Exec.Alike false (inner :: outer) body.exec body'.exec :=
        fun _ _ paired => (body.exec_twin_after inBody paired).alike
      have again := mirrored.quiet.handled some_ first body'.exec_inner
        fun name here => fresh name (List.mem_append_left _ here)
      rw [Stmt.lookups]
      refine List.forall_mem_append.mpr ⟨body.lookups_agree inBody mirrored.quiet.pushed, ?_⟩
      rcases left : Exec.inScope body.exec source with ⟨_ | _, middle⟩
      · rw [left] at again
        exact handler.lookups_agree inHandler again
      · exact List.forall_mem_nil _

theorem Stmt.allLookups_agree (body : List Stmt) {body' : List Stmt} {loud : Bool}
    {outer : List Naming} {inner : Naming} {source target : Session}
    (renamed : Stmt.RenamedAll loud outer inner body body')
    (mirrored : Mirrored loud (inner :: outer) source target) :
    ∀ lookup ∈ Stmt.allLookups body body' source target, lookup.Agrees := by
  match body with
  | [] =>
      obtain rfl : body' = [] := renamed
      exact List.forall_mem_nil _
  | s :: rest =>
      obtain ⟨s', rest', first, others, rfl⟩ := renamed
      have after := mirrored.exec first
      rw [Stmt.allLookups]
      refine List.forall_mem_append.mpr ⟨s.lookups_agree first mirrored, ?_⟩
      rcases left : s.exec source with ⟨_ | _, middle⟩
      · exact List.forall_mem_nil _
      · rw [left] at after
        exact Stmt.allLookups_agree rest others (after rfl)

theorem Arm.lookups_agree (scrutinee : Value) (arms : List Arm) {arms' : List Arm}
    {namings : List Naming} {source target : Session} (renamed : Arm.RenamedAll namings arms arms')
    (mirrored : Mirrored false namings source target) :
    ∀ lookup ∈ Arm.lookups scrutinee arms arms' source target, lookup.Agrees := by
  match arms with
  | [] =>
      obtain rfl : arms' = [] := renamed
      exact List.forall_mem_nil _
  | .mk none body :: rest =>
      obtain ⟨body', rest', inBody, _, rfl⟩ := renamed
      rw [Arm.lookups]
      exact body.lookups_agree inBody mirrored.pushed
  | .mk (some pattern) body :: rest =>
      obtain ⟨pattern', body', rest', inPattern, inBody, inRest, rfl⟩ := renamed
      rw [Arm.lookups]
      refine List.forall_mem_cons.mpr ⟨mirrored.lookup_agrees inPattern, ?_⟩
      cases pattern.eval source.env with
      | error => exact List.forall_mem_nil _
      | ok v =>
          dsimp only
          split
          · exact body.lookups_agree inBody mirrored.pushed
          · exact Arm.lookups_agree scrutinee rest inRest mirrored

end

end Resumable
