import Resumable.Proofs.Eval.OwnFault
import Resumable.Proofs.Eval.Placed
import Resumable.Proofs.Outcome

/-! A renamed tree runs like the tree it comes from: it gives the same results, fails in the same
places and hands out the same values, and the environments stay in step. -/

namespace Resumable

section Expressions

variable {namings : List Naming} {source target : Env}

theorem Expr.truth_renamed {e e' : Expr} (renamed : e.Renamed namings e') :
    e'.truth = e.truth := by
  funext value
  cases value <;> simp [Expr.truth, renamed.location]

mutual

theorem Expr.eval_renamed (e : Expr) {e' : Expr} (placed : Placed namings source target)
    (renamed : e.Renamed namings e') : e'.eval target = e.eval source := by
  match e with
  | .literal .. =>
      rw [renamed.literal]
      rfl
  | .reference .. =>
      obtain ⟨localName, found, rfl⟩ := renamed.reference
      obtain ⟨v, inSource, inTarget⟩ := placed.get?_eq found
      simp only [Expr.eval, inSource, inTarget]
  | .binary op left right _ =>
      obtain ⟨left', right', inLeft, inRight, rfl⟩ := renamed.binary
      have first := left.eval_renamed placed inLeft
      have second := right.eval_renamed placed inRight
      have testLeft : left'.truth = left.truth := Expr.truth_renamed inLeft
      have testRight : right'.truth = right.truth := Expr.truth_renamed inRight
      cases op <;> simp only [Expr.eval, first, second, testLeft, testRight]
  | .unary _ operand _ =>
      obtain ⟨operand', inOperand, rfl⟩ := renamed.unary
      simp only [Expr.eval, operand.eval_renamed placed inOperand]
  | .call _ args _ =>
      obtain ⟨args', inArgs, rfl⟩ := renamed.call
      simp only [Expr.eval, Expr.evalAll_renamed args placed inArgs]
  | .suspend .. => exact renamed.not_suspend.elim
  | .function .. => exact renamed.not_function.elim

theorem Expr.evalAll_renamed (es : List Expr) {es' : List Expr}
    (placed : Placed namings source target) (renamed : Expr.RenamedAll namings es es') :
    Expr.evalAll target es' = Expr.evalAll source es := by
  match es with
  | [] =>
      rw [renamed.nil]
      rfl
  | e :: rest =>
      obtain ⟨e', rest', inFirst, inRest, rfl⟩ := renamed.cons
      simp only [Expr.evalAll, e.eval_renamed placed inFirst,
        Expr.evalAll_renamed rest placed inRest]

end

mutual

/-- Evaluation that knows every name fails only by what it computes. -/
theorem Expr.eval_own (e : Expr) {e' : Expr} {failure : Failure}
    (placed : Placed namings source target) (renamed : e.Renamed namings e')
    (failed : e.eval source = .error failure) : failure.Own := by
  match e with
  | .literal .. => cases failed
  | .reference .. =>
      obtain ⟨localName, found, rfl⟩ := renamed.reference
      obtain ⟨v, inSource, _⟩ := placed.get?_eq found
      simp [Expr.eval, inSource] at failed
  | .binary op left right _ =>
      obtain ⟨left', right', inLeft, inRight, rfl⟩ := renamed.binary
      exact Expr.eval_binary_fails id (fun _ => left.eval_own placed inLeft)
        (fun _ => right.eval_own placed inRight) failed
  | .unary op operand mark =>
      obtain ⟨operand', inOperand, rfl⟩ := renamed.unary
      rw [Expr.eval] at failed
      rcases failed_bind failed with inner | ⟨v, _, applied⟩
      · exact operand.eval_own placed inOperand inner
      · exact RunFault.at_own (fun _ => UnaryOp.apply_isOwn) applied
  | .call name args mark =>
      obtain ⟨args', inArgs, rfl⟩ := renamed.call
      rw [Expr.eval] at failed
      rcases failed_bind failed with inner | ⟨vs, _, applied⟩
      · exact Expr.evalAll_own args placed inArgs inner
      · exact RunFault.at_own (fun _ => callBuiltin_isOwn) applied
  | .suspend .. => exact renamed.not_suspend.elim
  | .function .. => exact renamed.not_function.elim

theorem Expr.evalAll_own (es : List Expr) {es' : List Expr} {failure : Failure}
    (placed : Placed namings source target) (renamed : Expr.RenamedAll namings es es')
    (failed : Expr.evalAll source es = .error failure) : failure.Own := by
  match es with
  | [] => cases failed
  | e :: rest =>
      obtain ⟨e', rest', inFirst, inRest, rfl⟩ := renamed.cons
      rw [Expr.evalAll] at failed
      rcases failed_bind failed with first | ⟨v, _, others⟩
      · exact e.eval_own placed inFirst first
      · rcases failed_bind others with last | ⟨vs, _, impossible⟩
        · exact Expr.evalAll_own rest placed inRest last
        · cases impossible

end

theorem Expr.evalCondition_renamed {e e' : Expr} (placed : Placed namings source target)
    (renamed : e.Renamed namings e') : e'.evalCondition target = e.evalCondition source := by
  simp only [Expr.evalCondition, e.eval_renamed placed renamed, Expr.truth_renamed renamed]

theorem Expr.evalCondition_own {e e' : Expr} {failure : Failure}
    (placed : Placed namings source target) (renamed : e.Renamed namings e')
    (failed : e.evalCondition source = .error failure) : failure.Own := by
  rcases failed_bind failed with inner | ⟨v, _, test⟩
  · exact e.eval_own placed renamed inner
  · exact Expr.truth_own test

end Expressions

/-- Two sessions in step. Loud code needs both of them to collect what is handed out. -/
structure Paired (loud : Bool) (namings : List Naming) (source target : Session) : Prop where
  placed : Placed namings source.env target.env
  open_ : target.env ≠ []
  heard : loud = true → source.yields.isSome ∧ target.yields.isSome

/-- Two runs from given sessions: they end alike, hand out the same and leave sessions in step. -/
structure Twin (loud : Bool) (namings : List Naming) (source target : Session)
    (first second : Except Failure Unit × Session) : Prop where
  result : second.1 = first.1
  own : ∀ failure, first.1 = .error failure → failure.Own
  yields : ∃ new, first.2.yields = source.yields.map (new ++ ·) ∧
    second.2.yields = target.yields.map (new ++ ·) ∧ (loud = false → new = [])
  placed : Placed namings first.2.env second.2.env
  open_ : second.2.env ≠ []

theorem no_error {failure : Failure} {own : Prop} :
    (Except.ok () : Except Failure Unit) = .error failure → own := by
  intro impossible
  cases impossible

namespace Paired

variable {loud : Bool} {namings : List Naming} {source target : Session}

theorem quiet (paired : Paired loud namings source target) : Paired false namings source target :=
  ⟨paired.placed, paired.open_, fun impossible => by cases impossible⟩

theorem push (paired : Paired loud namings source target) :
    Paired loud ([] :: namings) { source with env := source.env.push }
      { target with env := target.env.push } :=
  ⟨paired.placed.push_source.push_target, List.cons_ne_nil _ _, paired.heard⟩

theorem still (paired : Paired loud namings source target) {result : Except Failure Unit}
    (own : ∀ failure, result = .error failure → failure.Own) :
    Twin loud namings source target (result, source) (result, target) :=
  ⟨rfl, own, ⟨[], by simp, by simp, fun _ => rfl⟩, paired.placed, paired.open_⟩

theorem done (paired : Paired loud namings source target) :
    Twin loud namings source target (.ok (), source) (.ok (), target) :=
  paired.still fun _ => no_error

theorem failed (paired : Paired loud namings source target) {failure : Failure}
    (own : failure.Own) :
    Twin loud namings source target (.error failure, source) (.error failure, target) :=
  paired.still fun _ equal => Except.error.inj equal ▸ own

theorem hand (paired : Paired loud namings source target) (loudly : loud = true) (v : Value)
    (location : Location) :
    Twin loud namings source target (Exec.hand v location source)
      (Exec.hand v location target) := by
  obtain ⟨left, right⟩ := paired.heard loudly
  obtain ⟨yields, inSource⟩ := Option.isSome_iff_exists.mp left
  obtain ⟨yields', inTarget⟩ := Option.isSome_iff_exists.mp right
  rw [Exec.hand_apply, Exec.hand_apply]
  simp only [inSource, inTarget]
  refine ⟨rfl, fun _ => no_error, ⟨[v], ?_, ?_, ?_⟩, paired.placed,
    paired.open_⟩
  · simp [inSource]
  · simp [inTarget]
  · simp [loudly]

end Paired

namespace Twin

variable {loud : Bool} {namings further : List Naming} {source target middle middle' : Session}
  {first second : Except Failure Unit × Session}

theorem moved {env env' : Env} (placed : Placed namings env env') (open_ : env' ≠ []) :
    Twin loud namings source target (.ok (), { source with env := env })
      (.ok (), { target with env := env' }) :=
  ⟨rfl, fun _ => no_error, ⟨[], by simp, by simp, fun _ => rfl⟩, placed, open_⟩

theorem ends (twin : Twin loud namings source target first second) :
    (∃ failure middle middle', first = (.error failure, middle) ∧
      second = (.error failure, middle')) ∨
    ∃ middle middle', first = (.ok (), middle) ∧ second = (.ok (), middle') := by
  obtain ⟨outcome, middle⟩ := first
  obtain ⟨outcome', middle'⟩ := second
  obtain rfl : outcome' = outcome := twin.result
  cases outcome' with
  | error failure => exact .inl ⟨failure, middle, middle', rfl, rfl⟩
  | ok => exact .inr ⟨middle, middle', rfl, rfl⟩

theorem louder (twin : Twin false namings source target first second) :
    Twin loud namings source target first second := by
  obtain ⟨new, left, right, none⟩ := twin.yields
  exact ⟨twin.result, twin.own, ⟨new, left, right, fun _ => none rfl⟩, twin.placed, twin.open_⟩

theorem paired (twin : Twin loud namings source target first second)
    (heard : loud = true → source.yields.isSome ∧ target.yields.isSome) :
    Paired loud namings first.2 second.2 := by
  obtain ⟨new, left, right, _⟩ := twin.yields
  refine ⟨twin.placed, twin.open_, fun loudly => ?_⟩
  rw [left, right, Option.isSome_map, Option.isSome_map]
  exact heard loudly

theorem after (before : Twin loud namings source target (.ok (), middle) (.ok (), middle'))
    (rest : Twin loud further middle middle' first second) :
    Twin loud further source target first second := by
  obtain ⟨new, left, right, quiet⟩ := before.yields
  obtain ⟨more, left', right', quiet'⟩ := rest.yields
  refine ⟨rest.result, rest.own, ⟨more ++ new, ?_, ?_, ?_⟩, rest.placed, rest.open_⟩
  · rw [left', left, Option.map_map]
    congr 1
    funext yields
    simp
  · rw [right', right, Option.map_map]
    congr 1
    funext yields
    simp
  · intro silent
    rw [quiet silent, quiet' silent]
    rfl

end Twin

namespace Exec

variable {loud : Bool} {namings : List Naming} {source target : Session}
  {made changed : List String} {code code' handler handler' : Exec Unit}

/-- Code whose two forms run alike from sessions in step, in a scope of its own. -/
def Alike (loud : Bool) (namings : List Naming) (code code' : Exec Unit) : Prop :=
  ∀ source target, Paired loud ([] :: namings) source target →
    ∃ naming, Twin loud (naming :: namings) source target (code source) (code' target)

theorem inScope_twin (some_ : namings ≠ []) (alike : Alike loud namings code code')
    (inner : Inner made changed code') (fresh : ∀ name ∈ made, name ∉ Naming.locals namings)
    (paired : Paired loud namings source target) :
    Twin loud namings source target (inScope code source) (inScope code' target) := by
  obtain ⟨naming, twin⟩ := alike _ _ paired.push
  obtain ⟨scope, outer, shape, keys, kept⟩ :=
    inner { target with env := target.env.push } [] target.env rfl
  have outerOpen : outer ≠ [] := kept.ne_nil paired.open_
  have placed := twin.placed
  rw [inScope_apply, inScope_apply]
  rw [shape] at placed
  cases sourceShape : (code { source with env := source.env.push }).2.env with
  | nil =>
      rw [sourceShape] at placed
      cases placed.scopes
  | cons top below =>
      rw [sourceShape] at placed
      have left := placed.pop_source
      have both : Placed namings below outer := by
        refine left.pop_target fun name present => ?_
        rcases keys name present with here | here
        · simp at here
        · exact fresh name here
      have belowOpen : below ≠ [] := by
        rintro rfl
        cases both.scopes
        exact some_ rfl
      refine ⟨twin.result, twin.own, twin.yields, ?_, ?_⟩
      · simp only [shape, Env.pop_cons outerOpen, Env.pop_cons belowOpen]
        exact both
      · simp only [shape, Env.pop_cons outerOpen]
        exact outerOpen

theorem inScope_lengths (some_ : namings ≠ []) (alike : Alike loud namings code code')
    (inner : Inner made changed code') (fresh : ∀ name ∈ made, name ∉ Naming.locals namings)
    (paired : Paired loud namings source target) :
    (inScope code source).2.env.length = source.env.length ∧
      (inScope code' target).2.env.length = target.env.length := by
  have twin := inScope_twin some_ alike inner fresh paired
  refine ⟨?_, (inScope_kept inner paired.open_).length_eq⟩
  rw [← twin.placed.scopes.length_eq, ← paired.placed.scopes.length_eq]

theorem recover_twin (some_ : namings ≠ []) (alike : Alike false namings code code')
    (alike' : Alike false namings handler handler') (inner : Inner made changed code')
    (inner' : Inner made changed handler') (fresh : ∀ name ∈ made, name ∉ Naming.locals namings)
    (paired : Paired false namings source target) :
    Twin false namings source target (recover code handler source)
      (recover code' handler' target) := by
  have first := inScope_twin some_ alike inner fresh paired
  have lengths := inScope_lengths some_ alike inner fresh paired
  rw [recover_apply, recover_apply]
  obtain ⟨failure, middle, middle', left, right⟩ | ⟨middle, middle', left, right⟩ := first.ends
  · rw [left, right] at first lengths
    have again : Paired false namings middle middle' := first.paired paired.heard
    have second := inScope_twin some_ alike' inner' fresh again
    have before : Twin false namings source target (.ok (), middle) (.ok (), middle') :=
      ⟨rfl, fun _ => no_error, first.yields, first.placed, first.open_⟩
    simp only [left, right, Env.keepOuter_length lengths.1, Env.keepOuter_length lengths.2]
    exact before.after second
  · rw [left, right] at first ⊢
    exact first

theorem loop_twin {condition condition' : Expr} (location : Location) (some_ : namings ≠ [])
    (test : condition.Renamed namings condition') (alike : Alike false namings code code')
    (inner : Inner made changed code') (fresh : ∀ name ∈ made, name ∉ Naming.locals namings)
    (rounds : Nat) (paired : Paired false namings source target) :
    Twin false namings source target (loop (Exec.condition condition) code location rounds source)
      (loop (Exec.condition condition') code' location rounds target) := by
  induction rounds generalizing source target with
  | zero =>
      have same := Expr.evalCondition_renamed paired.placed test
      rw [loop_zero_apply, loop_zero_apply, condition_apply, condition_apply, same]
      rcases tested : condition.evalCondition source.env with failure | _ | _
      · exact paired.failed (Expr.evalCondition_own paired.placed test tested)
      · exact paired.done
      · exact paired.failed ⟨_, rfl, rfl⟩
  | succ rounds ih =>
      have same := Expr.evalCondition_renamed paired.placed test
      rw [loop_succ_apply, loop_succ_apply, condition_apply, condition_apply, same]
      rcases tested : condition.evalCondition source.env with failure | _ | _
      · exact paired.failed (Expr.evalCondition_own paired.placed test tested)
      · exact paired.done
      · have round := inScope_twin some_ alike inner fresh paired
        obtain ⟨failure, middle, middle', left, right⟩ | ⟨middle, middle', left, right⟩ :=
          round.ends
        · rw [left, right] at round
          simp only [left, right]
          exact round
        · rw [left, right] at round
          simp only [left, right]
          exact round.after (ih (round.paired paired.heard))

end Exec

/-- How a statement leaves the naming of its scope: as it was, or extended by a declaration that
was reached. -/
def Stmt.TwinAfter (s s' : Stmt) (loud : Bool) (outer : List Naming) (inner : Naming)
    (source target : Session) : Prop :=
  ∃ naming, Twin loud (naming :: outer) source target (s.exec source) (s'.exec target) ∧
    ((s.exec source).1 = .ok () ∨ s.declared? = none → naming = inner.after s s')

theorem Stmt.TwinAfter.alike {s s' : Stmt} {loud : Bool} {outer : List Naming} {inner : Naming}
    {source target : Session} (after : s.TwinAfter s' loud outer inner source target) :
    ∃ naming, Twin loud (naming :: outer) source target (s.exec source) (s'.exec target) := by
  obtain ⟨naming, twin, _⟩ := after
  exact ⟨naming, twin⟩

theorem Stmt.TwinAfter.plain {s s' : Stmt} {loud : Bool} {outer : List Naming} {inner : Naming}
    {source target : Session} (none_ : s.declared? = none)
    (twin : Twin loud (inner :: outer) source target (s.exec source) (s'.exec target)) :
    s.TwinAfter s' loud outer inner source target := by
  refine ⟨inner, twin, fun _ => ?_⟩
  rw [Naming.after_eq, none_]

mutual

theorem Stmt.exec_twin_after (s : Stmt) {s' : Stmt} {loud : Bool} {outer : List Naming}
    {inner : Naming} {source target : Session} (renamed : s.Renamed loud outer inner s')
    (paired : Paired loud (inner :: outer) source target) :
    s.TwinAfter s' loud outer inner source target := by
  have some_ : inner :: outer ≠ [] := List.cons_ne_nil _ _
  have fresh := Stmt.Renamed.bound_fresh s renamed
  match s with
  | .declare name type mutable value location =>
      obtain ⟨localName, value', inValue, new, unknown, rfl⟩ := renamed
      unfold Stmt.TwinAfter
      rw [Stmt.exec_declare, Stmt.exec_declare, value.eval_renamed paired.placed inValue]
      cases evaluated : value.eval source.env with
      | error failure =>
          have own := value.eval_own paired.placed inValue evaluated
          refine ⟨inner, paired.failed own, fun impossible => ?_⟩
          rcases impossible with impossible | impossible <;> cases impossible
      | ok v =>
          refine ⟨inner ++ [(name, localName)], ?_, fun _ => rfl⟩
          exact .moved (paired.placed.define paired.open_ new unknown v)
            (Env.define_ne_nil paired.open_)
  | .assign name value location =>
      obtain ⟨localName, value', found, inValue, rfl⟩ := renamed
      refine .plain rfl ?_
      rw [Stmt.exec_assign, Stmt.exec_assign, value.eval_renamed paired.placed inValue]
      cases evaluated : value.eval source.env with
      | error failure =>
          exact paired.failed (value.eval_own paired.placed inValue evaluated)
      | ok v =>
          obtain ⟨env, env', assigned, assigned', placed⟩ := paired.placed.assign found v
          have open_ : env' ≠ [] := (Env.Kept.assign? assigned').ne_nil paired.open_
          simp only [Exec.assign_apply, assigned, assigned']
          exact .moved placed open_
  | .evaluate value location =>
      refine .plain rfl ?_
      obtain ⟨value', inValue, rfl⟩ | ⟨loudly, payload, mark, payload', rfl, inPayload, rfl⟩ :=
        renamed
      · rw [Stmt.exec_evaluate, Stmt.exec_evaluate, inValue.payload?.1, inValue.payload?.2]
        simp only [value.eval_renamed paired.placed inValue]
        cases evaluated : value.eval source.env with
        | error failure =>
            exact paired.failed (value.eval_own paired.placed inValue evaluated)
        | ok v => exact paired.done
      · rw [Stmt.exec_evaluate, Stmt.exec_evaluate]
        simp only [Expr.payload?, payload.eval_renamed paired.placed inPayload]
        cases evaluated : payload.eval source.env with
        | error failure =>
            exact paired.failed (payload.eval_own paired.placed inPayload evaluated)
        | ok v => exact paired.hand loudly v location
  | .branch condition thenBranch none location =>
      obtain ⟨condition', thenBranch', inCondition, inThen, rfl⟩ := renamed
      have first : Exec.Alike loud (inner :: outer) thenBranch.exec thenBranch'.exec :=
        fun _ _ paired => (thenBranch.exec_twin_after inThen paired).alike
      refine .plain rfl ?_
      rw [Stmt.exec_branch_none, Stmt.exec_branch_none,
        Expr.evalCondition_renamed paired.placed inCondition]
      rcases tested : condition.evalCondition source.env with failure | _ | _
      · exact paired.failed (Expr.evalCondition_own paired.placed inCondition tested)
      · exact paired.done
      · exact Exec.inScope_twin some_ first thenBranch'.exec_inner fresh paired
  | .branch condition thenBranch (some elseBranch) location =>
      obtain ⟨condition', thenBranch', elseBranch', inCondition, inThen, inElse, rfl⟩ := renamed
      have first : Exec.Alike loud (inner :: outer) thenBranch.exec thenBranch'.exec :=
        fun _ _ paired => (thenBranch.exec_twin_after inThen paired).alike
      have second : Exec.Alike loud (inner :: outer) elseBranch.exec elseBranch'.exec :=
        fun _ _ paired => (elseBranch.exec_twin_after inElse paired).alike
      refine .plain rfl ?_
      rw [Stmt.exec_branch_some, Stmt.exec_branch_some,
        Expr.evalCondition_renamed paired.placed inCondition]
      rcases tested : condition.evalCondition source.env with failure | _ | _
      · exact paired.failed (Expr.evalCondition_own paired.placed inCondition tested)
      · exact Exec.inScope_twin some_ second elseBranch'.exec_inner
          (fun name here => fresh name (List.mem_append_right _ here)) paired
      · exact Exec.inScope_twin some_ first thenBranch'.exec_inner
          (fun name here => fresh name (List.mem_append_left _ here)) paired
  | .block body location =>
      obtain ⟨body', inBody, rfl⟩ := renamed
      have first : Exec.Alike loud (inner :: outer) (Stmt.execAll body) (Stmt.execAll body') :=
        fun _ _ paired => Stmt.execAll_twin body inBody paired
      refine .plain rfl ?_
      rw [Stmt.exec_block, Stmt.exec_block]
      exact Exec.inScope_twin some_ first (Stmt.execAll_inner body') fresh paired
  | .loop condition body location =>
      obtain ⟨condition', body', inCondition, inBody, rfl⟩ := renamed
      have round : Exec.Alike false (inner :: outer) body.exec body'.exec :=
        fun _ _ paired => (body.exec_twin_after inBody paired).alike
      refine .plain rfl ?_
      rw [Stmt.exec_loop, Stmt.exec_loop]
      exact (Exec.loop_twin location some_ inCondition round body'.exec_inner fresh
        Exec.loopLimit paired.quiet).louder
  | .select scrutinee arms location =>
      obtain ⟨scrutinee', arms', inScrutinee, inArms, rfl⟩ := renamed
      refine .plain rfl ?_
      rw [Stmt.exec_select, Stmt.exec_select,
        scrutinee.eval_renamed paired.placed inScrutinee]
      cases evaluated : scrutinee.eval source.env with
      | error failure =>
          exact paired.failed (scrutinee.eval_own paired.placed inScrutinee evaluated)
      | ok v => exact (Arm.execFirst_twin v arms some_ inArms paired.quiet).louder
  | .attempt body handler location =>
      obtain ⟨body', handler', inBody, inHandler, rfl⟩ := renamed
      have first : Exec.Alike false (inner :: outer) body.exec body'.exec :=
        fun _ _ paired => (body.exec_twin_after inBody paired).alike
      have second : Exec.Alike false (inner :: outer) handler.exec handler'.exec :=
        fun _ _ paired => (handler.exec_twin_after inHandler paired).alike
      have firstInner : Exec.Inner (body'.bound ++ handler'.bound)
          (body'.targets ++ handler'.targets) body'.exec :=
        body'.exec_inner.mono (List.subset_append_left _ _) (List.subset_append_left _ _)
      have secondInner : Exec.Inner (body'.bound ++ handler'.bound)
          (body'.targets ++ handler'.targets) handler'.exec :=
        handler'.exec_inner.mono (List.subset_append_right _ _) (List.subset_append_right _ _)
      refine .plain rfl ?_
      rw [Stmt.exec_attempt, Stmt.exec_attempt]
      exact (Exec.recover_twin some_ first second firstInner secondInner fresh
        paired.quiet).louder

theorem Stmt.execAll_twin (body : List Stmt) {body' : List Stmt} {loud : Bool}
    {outer : List Naming} {inner : Naming} {source target : Session}
    (renamed : Stmt.RenamedAll loud outer inner body body')
    (paired : Paired loud (inner :: outer) source target) :
    ∃ naming, Twin loud (naming :: outer) source target (Stmt.execAll body source)
      (Stmt.execAll body' target) := by
  match body with
  | [] =>
      have empty : body' = [] := renamed
      rw [empty]
      exact ⟨inner, paired.done⟩
  | s :: rest =>
      obtain ⟨s', rest', first, others, rfl⟩ := renamed
      obtain ⟨naming, twin, reached⟩ := s.exec_twin_after first paired
      rw [Stmt.execAll_cons, Stmt.execAll_cons]
      obtain ⟨failure, middle, middle', left, right⟩ | ⟨middle, middle', left, right⟩ := twin.ends
      · rw [left, right] at twin ⊢
        exact ⟨naming, twin⟩
      · rw [reached (.inl (congrArg Prod.fst left)), left, right] at twin
        rw [left, right]
        obtain ⟨last, tail⟩ := Stmt.execAll_twin rest others (twin.paired paired.heard)
        exact ⟨last, twin.after tail⟩

theorem Arm.execFirst_twin (scrutinee : Value) (arms : List Arm) {arms' : List Arm}
    {namings : List Naming} {source target : Session} (some_ : namings ≠ [])
    (renamed : Arm.RenamedAll namings arms arms') (paired : Paired false namings source target) :
    Twin false namings source target (Arm.execFirst scrutinee arms source)
      (Arm.execFirst scrutinee arms' target) := by
  have fresh := Arm.RenamedAll.bound_fresh arms renamed
  match arms with
  | [] =>
      have empty : arms' = [] := renamed
      rw [empty]
      exact paired.done
  | .mk none body :: rest =>
      obtain ⟨body', rest', inBody, _, rfl⟩ := renamed
      rw [Arm.execFirst_none, Arm.execFirst_none]
      have chosen : Exec.Alike false namings body.exec body'.exec :=
        fun _ _ paired => (body.exec_twin_after inBody paired).alike
      exact Exec.inScope_twin some_ chosen body'.exec_inner
        (fun name here => fresh name (List.mem_append_left _ here)) paired
  | .mk (some pattern) body :: rest =>
      obtain ⟨pattern', body', rest', inPattern, inBody, inRest, rfl⟩ := renamed
      rw [Arm.execFirst_some, Arm.execFirst_some, pattern.eval_renamed paired.placed inPattern]
      cases evaluated : pattern.eval source.env with
      | error failure =>
          exact paired.failed (pattern.eval_own paired.placed inPattern evaluated)
      | ok v =>
          dsimp only
          split
          · have chosen : Exec.Alike false namings body.exec body'.exec :=
              fun _ _ paired => (body.exec_twin_after inBody paired).alike
            exact Exec.inScope_twin some_ chosen body'.exec_inner
              (fun name here => fresh name (List.mem_append_left _ here)) paired
          · exact Arm.execFirst_twin scrutinee rest some_ inRest paired

end

end Resumable
