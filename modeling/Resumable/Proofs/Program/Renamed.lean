import Resumable.Program.Renaming
import Resumable.Proofs.Program.Names

/-! Trees over other names. A naming gives the names of one scope the names that stand for them in
another tree; the namings of nested scopes are listed from the innermost outward. -/

namespace Resumable

abbrev Naming := List (String × String)

namespace Naming

def find? (name : String) : List Naming → Option String
  | [] => none
  | inner :: outer => (inner.lookup name).or (find? name outer)

def locals (namings : List Naming) : List String :=
  namings.flatMap fun naming => naming.map Prod.snd

@[simp] theorem locals_nil : locals [] = [] := rfl

@[simp] theorem locals_cons (inner : Naming) (outer : List Naming) :
    locals (inner :: outer) = inner.map Prod.snd ++ locals outer := rfl

/-- A declaration adds its two names to the scope it stands in. -/
def after (naming : Naming) : Stmt → Stmt → Naming
  | .declare name .., .declare localName .. => naming ++ [(name, localName)]
  | _, _ => naming

def same (names : List String) : Naming := names.map fun name => (name, name)

theorem mem_locals_of_find? {name localName : String} {namings : List Naming}
    (found : find? name namings = some localName) : localName ∈ locals namings := by
  induction namings with
  | nil => simp [find?] at found
  | cons inner outer ih =>
      rw [locals_cons, List.mem_append]
      cases here : inner.lookup name with
      | none =>
          have further : find? name outer = some localName := by simpa [find?, here] using found
          exact .inr (ih further)
      | some other =>
          have equal : other = localName := by simpa [find?, here] using found
          subst equal
          obtain ⟨before, behind, rfl, _⟩ := List.lookup_eq_some_iff.mp here
          exact .inl (by simp)

theorem lookup_same {names : List String} {name : String} :
    (same names).lookup name = if name ∈ names then some name else none := by
  induction names with
  | nil => rfl
  | cons head rest ih =>
      by_cases equal : name = head
      · simp [same, equal]
      · have apart : (name == head) = false := by simpa using equal
        have step : (same (head :: rest)).lookup name = (same rest).lookup name := by
          simp [same, List.lookup_cons, apart]
        rw [step, ih]
        simp [equal]

theorem locals_same (scopes : List (List String)) : locals (scopes.map same) = scopes.flatten := by
  induction scopes with
  | nil => rfl
  | cons scope rest ih => simp [ih, same, Function.comp_def]

theorem find?_same {name : String} {scopes : List (List String)} :
    find? name (scopes.map same) = if name ∈ scopes.flatten then some name else none := by
  induction scopes with
  | nil => rfl
  | cons scope rest ih =>
      by_cases here : name ∈ scope
      · simp [find?, lookup_same, here]
      · simp [find?, lookup_same, here, ih]

end Naming

/-- An expression that is evaluated as it stands, with every reference replaced. -/
def Expr.Renamed (namings : List Naming) (e e' : Expr) : Prop :=
  e.mapReferences (fun name _ => Naming.find? name namings) = some e' ∧
    e.suspends = false ∧ e.holdsFunction = false

def Expr.RenamedAll (namings : List Naming) (es es' : List Expr) : Prop :=
  Expr.mapAllReferences (fun name _ => Naming.find? name namings) es = some es' ∧
    Expr.anySuspends es = false ∧ Expr.anyHoldsFunction es = false

mutual

/-- A statement with every name replaced, where the scopes are those of evaluation. Suspensions are
allowed in a `loud` statement, outside of what is kept whole. -/
def Stmt.Renamed (loud : Bool) (outer : List Naming) (inner : Naming) : Stmt → Stmt → Prop
  | .declare name type mutable value location, s' => ∃ localName value',
      value.Renamed (inner :: outer) value' ∧ inner.lookup name = none ∧
      localName ∉ Naming.locals (inner :: outer) ∧
      s' = .declare localName type mutable value' location
  | .assign target value location, s' => ∃ localName value',
      Naming.find? target (inner :: outer) = some localName ∧
      value.Renamed (inner :: outer) value' ∧ s' = .assign localName value' location
  | .evaluate value location, s' =>
      (∃ value', value.Renamed (inner :: outer) value' ∧ s' = .evaluate value' location) ∨
      (loud = true ∧ ∃ payload mark payload', value = .suspend payload mark ∧
        payload.Renamed (inner :: outer) payload' ∧
        s' = .evaluate (.suspend payload' mark) location)
  | .branch condition thenBranch none location, s' => ∃ condition' thenBranch',
      condition.Renamed (inner :: outer) condition' ∧
      thenBranch.Renamed loud (inner :: outer) [] thenBranch' ∧
      s' = .branch condition' thenBranch' none location
  | .branch condition thenBranch (some elseBranch) location, s' =>
      ∃ condition' thenBranch' elseBranch',
      condition.Renamed (inner :: outer) condition' ∧
      thenBranch.Renamed loud (inner :: outer) [] thenBranch' ∧
      elseBranch.Renamed loud (inner :: outer) [] elseBranch' ∧
      s' = .branch condition' thenBranch' (some elseBranch') location
  | .block body location, s' => ∃ body',
      Stmt.RenamedAll loud (inner :: outer) [] body body' ∧ s' = .block body' location
  | .loop condition body location, s' => ∃ condition' body',
      condition.Renamed (inner :: outer) condition' ∧
      body.Renamed false (inner :: outer) [] body' ∧ s' = .loop condition' body' location
  | .select scrutinee arms location, s' => ∃ scrutinee' arms',
      scrutinee.Renamed (inner :: outer) scrutinee' ∧
      Arm.RenamedAll (inner :: outer) arms arms' ∧ s' = .select scrutinee' arms' location
  | .attempt body handler location, s' => ∃ body' handler',
      body.Renamed false (inner :: outer) [] body' ∧
      handler.Renamed false (inner :: outer) [] handler' ∧ s' = .attempt body' handler' location

def Stmt.RenamedAll (loud : Bool) (outer : List Naming) (inner : Naming) :
    List Stmt → List Stmt → Prop
  | [], body' => body' = []
  | s :: rest, body' => ∃ s' rest', s.Renamed loud outer inner s' ∧
      Stmt.RenamedAll loud outer (inner.after s s') rest rest' ∧ body' = s' :: rest'

def Arm.RenamedAll (namings : List Naming) : List Arm → List Arm → Prop
  | [], arms' => arms' = []
  | .mk none body :: rest, arms' => ∃ body' rest', body.Renamed false namings [] body' ∧
      Arm.RenamedAll namings rest rest' ∧ arms' = .mk none body' :: rest'
  | .mk (some pattern) body :: rest, arms' => ∃ pattern' body' rest',
      pattern.Renamed namings pattern' ∧ body.Renamed false namings [] body' ∧
      Arm.RenamedAll namings rest rest' ∧ arms' = .mk (some pattern') body' :: rest'

end

namespace Expr

variable {namings : List Naming} {mark : Mark} {e' : Expr}

theorem Renamed.reference {name : String} (renamed : (Expr.reference name mark).Renamed namings e') :
    ∃ localName, Naming.find? name namings = some localName ∧ e' = .reference localName mark := by
  have mapped := renamed.1
  simp only [Expr.mapReferences, Option.bind_eq_bind, Option.bind_eq_some_iff, Option.pure_def,
    Option.some.injEq] at mapped
  obtain ⟨localName, found, rfl⟩ := mapped
  exact ⟨localName, found, rfl⟩

theorem Renamed.literal {value : Value} (renamed : (Expr.literal value mark).Renamed namings e') :
    e' = .literal value mark := by
  have mapped := renamed.1
  simpa [Expr.mapReferences] using mapped.symm

theorem Renamed.binary {op : BinaryOp} {left right : Expr}
    (renamed : (Expr.binary op left right mark).Renamed namings e') :
    ∃ left' right', left.Renamed namings left' ∧ right.Renamed namings right' ∧
      e' = .binary op left' right' mark := by
  obtain ⟨mapped, quiet, plain⟩ := renamed
  simp only [Expr.mapReferences, Option.bind_eq_bind, Option.bind_eq_some_iff, Option.pure_def,
    Option.some.injEq] at mapped
  obtain ⟨left', mappedLeft, right', mappedRight, rfl⟩ := mapped
  simp only [Expr.suspends, Expr.holdsFunction, Bool.or_eq_false_iff] at quiet plain
  exact ⟨left', right', ⟨mappedLeft, quiet.1, plain.1⟩, ⟨mappedRight, quiet.2, plain.2⟩, rfl⟩

theorem Renamed.unary {op : UnaryOp} {operand : Expr}
    (renamed : (Expr.unary op operand mark).Renamed namings e') :
    ∃ operand', operand.Renamed namings operand' ∧ e' = .unary op operand' mark := by
  obtain ⟨mapped, quiet, plain⟩ := renamed
  simp only [Expr.mapReferences, Option.bind_eq_bind, Option.bind_eq_some_iff, Option.pure_def,
    Option.some.injEq] at mapped
  obtain ⟨operand', mappedOperand, rfl⟩ := mapped
  exact ⟨operand', ⟨mappedOperand, quiet, plain⟩, rfl⟩

theorem Renamed.call {name : String} {args : List Expr}
    (renamed : (Expr.call name args mark).Renamed namings e') :
    ∃ args', RenamedAll namings args args' ∧ e' = .call name args' mark := by
  obtain ⟨mapped, quiet, plain⟩ := renamed
  simp only [Expr.mapReferences, Option.bind_eq_bind, Option.bind_eq_some_iff, Option.pure_def,
    Option.some.injEq] at mapped
  obtain ⟨args', mappedArgs, rfl⟩ := mapped
  exact ⟨args', ⟨mappedArgs, quiet, plain⟩, rfl⟩

theorem Renamed.not_suspend {payload : Expr}
    (renamed : (Expr.suspend payload mark).Renamed namings e') : False := by
  have quiet := renamed.2.1
  simp [Expr.suspends] at quiet

theorem Renamed.not_function {params : List Parameter} {yieldType : DataType} {body : Stmt}
    (renamed : (Expr.function params yieldType body mark).Renamed namings e') : False := by
  have plain := renamed.2.2
  simp [Expr.holdsFunction] at plain

theorem RenamedAll.nil {es' : List Expr} (renamed : RenamedAll namings [] es') : es' = [] := by
  simpa [Expr.mapAllReferences] using renamed.1.symm

theorem RenamedAll.cons {e : Expr} {rest es' : List Expr}
    (renamed : RenamedAll namings (e :: rest) es') :
    ∃ e' rest', e.Renamed namings e' ∧ RenamedAll namings rest rest' ∧ es' = e' :: rest' := by
  obtain ⟨mapped, quiet, plain⟩ := renamed
  simp only [Expr.mapAllReferences, Option.bind_eq_bind, Option.bind_eq_some_iff, Option.pure_def,
    Option.some.injEq] at mapped
  obtain ⟨e', mappedFirst, rest', mappedRest, rfl⟩ := mapped
  simp only [Expr.anySuspends, Expr.anyHoldsFunction, Bool.or_eq_false_iff] at quiet plain
  exact ⟨e', rest', ⟨mappedFirst, quiet.1, plain.1⟩, ⟨mappedRest, quiet.2, plain.2⟩, rfl⟩

theorem Renamed.location {e : Expr} (renamed : e.Renamed namings e') :
    e'.location = e.location := by
  cases e with
  | literal => rw [renamed.literal]
  | reference =>
      obtain ⟨localName, _, rfl⟩ := renamed.reference
      rfl
  | binary =>
      obtain ⟨left', right', _, _, rfl⟩ := renamed.binary
      rfl
  | unary =>
      obtain ⟨operand', _, rfl⟩ := renamed.unary
      rfl
  | call =>
      obtain ⟨args', _, rfl⟩ := renamed.call
      rfl
  | suspend => exact renamed.not_suspend.elim
  | function => exact renamed.not_function.elim

theorem Renamed.payload? {e : Expr} (renamed : e.Renamed namings e') :
    e.payload? = none ∧ e'.payload? = none := by
  cases e with
  | literal => rw [renamed.literal]; exact ⟨rfl, rfl⟩
  | reference =>
      obtain ⟨localName, _, rfl⟩ := renamed.reference
      exact ⟨rfl, rfl⟩
  | binary =>
      obtain ⟨left', right', _, _, rfl⟩ := renamed.binary
      exact ⟨rfl, rfl⟩
  | unary =>
      obtain ⟨operand', _, rfl⟩ := renamed.unary
      exact ⟨rfl, rfl⟩
  | call =>
      obtain ⟨args', _, rfl⟩ := renamed.call
      exact ⟨rfl, rfl⟩
  | suspend => exact renamed.not_suspend.elim
  | function => exact renamed.not_function.elim

mutual

theorem Renamed.references_mem (e : Expr) {e' : Expr} (renamed : e.Renamed namings e') :
    ∀ name ∈ e'.references, name ∈ Naming.locals namings := by
  match e with
  | .literal .. => simp [renamed.literal, Expr.references]
  | .reference .. =>
      obtain ⟨localName, found, rfl⟩ := renamed.reference
      simpa [Expr.references] using Naming.mem_locals_of_find? found
  | .binary _ left right _ =>
      obtain ⟨left', right', inLeft, inRight, rfl⟩ := renamed.binary
      intro name present
      rcases List.mem_append.mp present with here | here
      · exact Renamed.references_mem left inLeft name here
      · exact Renamed.references_mem right inRight name here
  | .unary _ operand _ =>
      obtain ⟨operand', inOperand, rfl⟩ := renamed.unary
      have inner := Renamed.references_mem operand inOperand
      exact inner
  | .call _ args _ =>
      obtain ⟨args', inArgs, rfl⟩ := renamed.call
      have inner := RenamedAll.references_mem args inArgs
      exact inner
  | .suspend .. => exact renamed.not_suspend.elim
  | .function .. => exact renamed.not_function.elim

theorem RenamedAll.references_mem (es : List Expr) {es' : List Expr}
    (renamed : RenamedAll namings es es') :
    ∀ name ∈ Expr.allReferences es', name ∈ Naming.locals namings := by
  match es with
  | [] => simp [renamed.nil, Expr.allReferences]
  | e :: rest =>
      obtain ⟨e', rest', inFirst, inRest, rfl⟩ := renamed.cons
      intro name present
      rcases List.mem_append.mp present with here | here
      · exact Renamed.references_mem e inFirst name here
      · exact RenamedAll.references_mem rest inRest name here

end

mutual

theorem Renamed.self (scopes : List (List String)) (e : Expr) {e' : Expr}
    (renamed : e.Renamed namings e') (known : ∀ name ∈ e'.references, name ∈ scopes.flatten) :
    e'.Renamed (scopes.map Naming.same) e' := by
  match e with
  | .literal .. =>
      rw [renamed.literal]
      exact ⟨rfl, rfl, rfl⟩
  | .reference .. =>
      obtain ⟨localName, _, rfl⟩ := renamed.reference
      have inside : localName ∈ scopes.flatten := known localName (by simp [Expr.references])
      refine ⟨?_, rfl, rfl⟩
      simp [Expr.mapReferences, Naming.find?_same, inside]
  | .binary _ left right _ =>
      obtain ⟨left', right', inLeft, inRight, rfl⟩ := renamed.binary
      have first := Renamed.self scopes left inLeft fun name here =>
        known name (List.mem_append_left _ here)
      have second := Renamed.self scopes right inRight fun name here =>
        known name (List.mem_append_right _ here)
      refine ⟨?_, ?_, ?_⟩
      · simp [Expr.mapReferences, first.1, second.1]
      · simp [Expr.suspends, first.2.1, second.2.1]
      · simp [Expr.holdsFunction, first.2.2, second.2.2]
  | .unary _ operand _ =>
      obtain ⟨operand', inOperand, rfl⟩ := renamed.unary
      have inner := Renamed.self scopes operand inOperand known
      refine ⟨?_, inner.2.1, inner.2.2⟩
      simp [Expr.mapReferences, inner.1]
  | .call _ args _ =>
      obtain ⟨args', inArgs, rfl⟩ := renamed.call
      have inner := RenamedAll.self scopes args inArgs known
      refine ⟨?_, inner.2.1, inner.2.2⟩
      simp [Expr.mapReferences, inner.1]
  | .suspend .. => exact renamed.not_suspend.elim
  | .function .. => exact renamed.not_function.elim

theorem RenamedAll.self (scopes : List (List String)) (es : List Expr) {es' : List Expr}
    (renamed : RenamedAll namings es es')
    (known : ∀ name ∈ Expr.allReferences es', name ∈ scopes.flatten) :
    RenamedAll (scopes.map Naming.same) es' es' := by
  match es with
  | [] =>
      rw [renamed.nil]
      exact ⟨rfl, rfl, rfl⟩
  | e :: rest =>
      obtain ⟨e', rest', inFirst, inRest, rfl⟩ := renamed.cons
      have first := Renamed.self scopes e inFirst fun name here =>
        known name (List.mem_append_left _ here)
      have second := RenamedAll.self scopes rest inRest fun name here =>
        known name (List.mem_append_right _ here)
      refine ⟨?_, ?_, ?_⟩
      · simp [Expr.mapAllReferences, first.1, second.1]
      · simp [Expr.anySuspends, first.2.1, second.2.1]
      · simp [Expr.anyHoldsFunction, first.2.2, second.2.2]

end

end Expr

namespace Naming

theorem after_eq (naming : Naming) (s s' : Stmt) : naming.after s s' =
    match s.declared?, s'.declared? with
    | some name, some localName => naming ++ [(name, localName)]
    | _, _ => naming := by
  cases s <;> cases s' <;> rfl

theorem locals_after {naming : Naming} {s s' : Stmt} {name : String}
    (present : name ∈ naming.map Prod.snd) : name ∈ (naming.after s s').map Prod.snd := by
  rw [after_eq]
  split
  · simp only [List.map_append, List.mem_append]
    exact .inl present
  · exact present

end Naming

variable {loud : Bool} {outer : List Naming} {inner : Naming}

theorem Stmt.Renamed.declared? {s s' : Stmt} (renamed : s.Renamed loud outer inner s') :
    s.declared?.isSome = s'.declared?.isSome := by
  match s with
  | .declare .. =>
      obtain ⟨localName, value', _, _, _, rfl⟩ := renamed
      rfl
  | .assign .. =>
      obtain ⟨localName, value', _, _, rfl⟩ := renamed
      rfl
  | .evaluate .. =>
      obtain ⟨value', _, rfl⟩ | ⟨_, payload, mark, payload', rfl, _, rfl⟩ := renamed
      · rfl
      · rfl
  | .branch _ _ none _ =>
      obtain ⟨condition', thenBranch', _, _, rfl⟩ := renamed
      rfl
  | .branch _ _ (some _) _ =>
      obtain ⟨condition', thenBranch', elseBranch', _, _, _, rfl⟩ := renamed
      rfl
  | .block .. =>
      obtain ⟨body', _, rfl⟩ := renamed
      rfl
  | .loop .. =>
      obtain ⟨condition', body', _, _, rfl⟩ := renamed
      rfl
  | .select .. =>
      obtain ⟨scrutinee', arms', _, _, rfl⟩ := renamed
      rfl
  | .attempt .. =>
      obtain ⟨body', handler', _, _, rfl⟩ := renamed
      rfl

mutual

theorem Stmt.Renamed.bound_fresh (s : Stmt) {s' : Stmt} {loud : Bool} {outer : List Naming}
    {inner : Naming} (renamed : s.Renamed loud outer inner s') :
    ∀ name ∈ s'.bound, name ∉ Naming.locals (inner :: outer) := by
  match s with
  | .declare .. =>
      obtain ⟨localName, value', _, _, fresh, rfl⟩ := renamed
      intro name present
      have equal : name = localName := by simpa [Stmt.bound] using present
      rw [equal]
      exact fresh
  | .assign .. =>
      obtain ⟨localName, value', _, _, rfl⟩ := renamed
      simp [Stmt.bound]
  | .evaluate .. =>
      obtain ⟨value', _, rfl⟩ | ⟨_, payload, mark, payload', rfl, _, rfl⟩ := renamed
      · simp [Stmt.bound]
      · simp [Stmt.bound]
  | .branch _ thenBranch none _ =>
      obtain ⟨condition', thenBranch', _, inThen, rfl⟩ := renamed
      have fresh := Stmt.Renamed.bound_fresh thenBranch inThen
      exact fresh
  | .branch _ thenBranch (some elseBranch) _ =>
      obtain ⟨condition', thenBranch', elseBranch', _, inThen, inElse, rfl⟩ := renamed
      intro name present
      rcases List.mem_append.mp present with here | here
      · exact Stmt.Renamed.bound_fresh thenBranch inThen name here
      · exact Stmt.Renamed.bound_fresh elseBranch inElse name here
  | .block body _ =>
      obtain ⟨body', inBody, rfl⟩ := renamed
      have fresh := Stmt.RenamedAll.bound_fresh body inBody
      exact fresh
  | .loop _ body _ =>
      obtain ⟨condition', body', _, inBody, rfl⟩ := renamed
      have fresh := Stmt.Renamed.bound_fresh body inBody
      exact fresh
  | .select _ arms _ =>
      obtain ⟨scrutinee', arms', _, inArms, rfl⟩ := renamed
      have fresh := Arm.RenamedAll.bound_fresh arms inArms
      exact fresh
  | .attempt body handler _ =>
      obtain ⟨body', handler', inBody, inHandler, rfl⟩ := renamed
      intro name present
      rcases List.mem_append.mp present with here | here
      · exact Stmt.Renamed.bound_fresh body inBody name here
      · exact Stmt.Renamed.bound_fresh handler inHandler name here

theorem Stmt.RenamedAll.bound_fresh (body : List Stmt) {body' : List Stmt} {loud : Bool}
    {outer : List Naming} {inner : Naming}
    (renamed : Stmt.RenamedAll loud outer inner body body') :
    ∀ name ∈ Stmt.boundAll body', name ∉ Naming.locals (inner :: outer) := by
  match body with
  | [] =>
      have empty : body' = [] := renamed
      simp [empty, Stmt.boundAll]
  | s :: rest =>
      obtain ⟨s', rest', first, others, rfl⟩ := renamed
      intro name present
      rcases List.mem_append.mp present with here | here
      · exact Stmt.Renamed.bound_fresh s first name here
      · have fresh := Stmt.RenamedAll.bound_fresh rest others name here
        intro known
        rcases List.mem_append.mp known with known | known
        · exact fresh (List.mem_append_left _ (Naming.locals_after known))
        · exact fresh (List.mem_append_right _ known)

theorem Arm.RenamedAll.bound_fresh (arms : List Arm) {arms' : List Arm} {namings : List Naming}
    (renamed : Arm.RenamedAll namings arms arms') :
    ∀ name ∈ Arm.boundAll arms', name ∉ Naming.locals namings := by
  match arms with
  | [] =>
      have empty : arms' = [] := renamed
      simp [empty, Arm.boundAll]
  | .mk none body :: rest =>
      obtain ⟨body', rest', inBody, inRest, rfl⟩ := renamed
      intro name present
      rcases List.mem_append.mp present with here | here
      · exact Stmt.Renamed.bound_fresh body inBody name here
      · exact Arm.RenamedAll.bound_fresh rest inRest name here
  | .mk (some _) body :: rest =>
      obtain ⟨pattern', body', rest', _, inBody, inRest, rfl⟩ := renamed
      intro name present
      rcases List.mem_append.mp present with here | here
      · exact Stmt.Renamed.bound_fresh body inBody name here
      · exact Arm.RenamedAll.bound_fresh rest inRest name here

end

theorem Naming.mem_locals_after {s s' : Stmt} {name : String} {naming : Naming}
    {outer : List Naming} (present : name ∈ Naming.locals (naming.after s s' :: outer)) :
    name ∈ Naming.locals (naming :: outer) ∨ s'.declared? = some name := by
  rw [Naming.locals_cons, Naming.after_eq, List.mem_append] at present
  rw [Naming.locals_cons, List.mem_append]
  rcases present with here | here
  · cases source : s.declared? with
    | none => simp only [source] at here; exact .inl (.inl here)
    | some found =>
        cases target : s'.declared? with
        | none => simp only [source, target] at here; exact .inl (.inl here)
        | some localName =>
            simp only [source, target, List.map_append, List.mem_append] at here
            rcases here with old | new
            · exact .inl (.inl old)
            · have equal : name = localName := by simpa using new
              exact .inr (by rw [equal])
  · exact .inl (.inr here)

theorem Naming.declared_mem_locals_after {s s' : Stmt} {name : String}
    (renamed : s.Renamed loud outer inner s') (declares : s'.declared? = some name) :
    name ∈ Naming.locals (inner.after s s' :: outer) := by
  have both := renamed.declared?
  rw [declares, Option.isSome_some, Option.isSome_iff_exists] at both
  obtain ⟨found, source⟩ := both
  rw [Naming.locals_cons, Naming.after_eq, source, declares]
  simp

mutual

theorem Stmt.Renamed.free_mem (s : Stmt) {s' : Stmt} {loud : Bool} {outer : List Naming}
    {inner : Naming} (renamed : s.Renamed loud outer inner s') :
    ∀ name ∈ s'.free, name ∈ Naming.locals (inner :: outer) := by
  match s with
  | .declare .. =>
      obtain ⟨localName, value', inValue, _, _, rfl⟩ := renamed
      have known := Expr.Renamed.references_mem _ inValue
      exact known
  | .assign .. =>
      obtain ⟨localName, value', found, inValue, rfl⟩ := renamed
      intro name present
      rcases List.mem_cons.mp present with rfl | here
      · exact Naming.mem_locals_of_find? found
      · exact Expr.Renamed.references_mem _ inValue name here
  | .evaluate .. =>
      obtain ⟨value', inValue, rfl⟩ | ⟨_, payload, mark, payload', rfl, inPayload, rfl⟩ := renamed
      · have known := Expr.Renamed.references_mem _ inValue
        exact known
      · have known := Expr.Renamed.references_mem _ inPayload
        exact known
  | .branch _ thenBranch none _ =>
      obtain ⟨condition', thenBranch', inCondition, inThen, rfl⟩ := renamed
      intro name present
      rcases List.mem_append.mp present with here | here
      · exact Expr.Renamed.references_mem _ inCondition name here
      · exact Stmt.Renamed.free_mem thenBranch inThen name here
  | .branch _ thenBranch (some elseBranch) _ =>
      obtain ⟨condition', thenBranch', elseBranch', inCondition, inThen, inElse, rfl⟩ := renamed
      intro name present
      rcases List.mem_append.mp present with here | here
      · exact Expr.Renamed.references_mem _ inCondition name here
      · rcases List.mem_append.mp here with here | here
        · exact Stmt.Renamed.free_mem thenBranch inThen name here
        · exact Stmt.Renamed.free_mem elseBranch inElse name here
  | .block body _ =>
      obtain ⟨body', inBody, rfl⟩ := renamed
      have known := Stmt.RenamedAll.free_mem body inBody
      exact known
  | .loop _ body _ =>
      obtain ⟨condition', body', inCondition, inBody, rfl⟩ := renamed
      intro name present
      rcases List.mem_append.mp present with here | here
      · exact Expr.Renamed.references_mem _ inCondition name here
      · exact Stmt.Renamed.free_mem body inBody name here
  | .select _ arms _ =>
      obtain ⟨scrutinee', arms', inScrutinee, inArms, rfl⟩ := renamed
      intro name present
      rcases List.mem_append.mp present with here | here
      · exact Expr.Renamed.references_mem _ inScrutinee name here
      · exact Arm.RenamedAll.free_mem arms inArms name here
  | .attempt body handler _ =>
      obtain ⟨body', handler', inBody, inHandler, rfl⟩ := renamed
      intro name present
      rcases List.mem_append.mp present with here | here
      · exact Stmt.Renamed.free_mem body inBody name here
      · exact Stmt.Renamed.free_mem handler inHandler name here

theorem Stmt.RenamedAll.free_mem (body : List Stmt) {body' : List Stmt} {loud : Bool}
    {outer : List Naming} {inner : Naming}
    (renamed : Stmt.RenamedAll loud outer inner body body') :
    ∀ name ∈ Stmt.freeAll body', name ∈ Naming.locals (inner :: outer) := by
  match body with
  | [] =>
      have empty : body' = [] := renamed
      simp [empty, Stmt.freeAll]
  | s :: rest =>
      obtain ⟨s', rest', first, others, rfl⟩ := renamed
      intro name present
      rcases List.mem_append.mp present with here | here
      · exact Stmt.Renamed.free_mem s first name here
      · obtain ⟨used, apart⟩ := List.mem_filter.mp here
        have known := Stmt.RenamedAll.free_mem rest others name used
        rcases Naming.mem_locals_after known with old | new
        · exact old
        · simp [new] at apart

theorem Arm.RenamedAll.free_mem (arms : List Arm) {arms' : List Arm} {namings : List Naming}
    (renamed : Arm.RenamedAll namings arms arms') :
    ∀ name ∈ Arm.freeAll arms', name ∈ Naming.locals namings := by
  match arms with
  | [] =>
      have empty : arms' = [] := renamed
      simp [empty, Arm.freeAll]
  | .mk none body :: rest =>
      obtain ⟨body', rest', inBody, inRest, rfl⟩ := renamed
      intro name present
      rcases List.mem_append.mp present with here | here
      · exact Stmt.Renamed.free_mem body inBody name here
      · exact Arm.RenamedAll.free_mem rest inRest name here
  | .mk (some _) body :: rest =>
      obtain ⟨pattern', body', rest', inPattern, inBody, inRest, rfl⟩ := renamed
      intro name present
      rcases List.mem_append.mp present with here | here
      · exact Expr.Renamed.references_mem _ inPattern name here
      · rcases List.mem_append.mp here with here | here
        · exact Stmt.Renamed.free_mem body inBody name here
        · exact Arm.RenamedAll.free_mem rest inRest name here

end

theorem Naming.after_same (scope : List String) (s : Stmt) :
    (Naming.same scope).after s s = Naming.same (scope ++ s.declared?.toList) := by
  rw [Naming.after_eq]
  cases s.declared? with
  | none => simp
  | some name => simp [Naming.same]

mutual

/-- A statement over local names stands for itself where its free names are known and those it
declares are not. -/
theorem Stmt.Renamed.self (scope : List String) (scopes : List (List String)) (s : Stmt)
    {s' : Stmt} {loud : Bool} {outer : List Naming} {inner : Naming}
    (renamed : s.Renamed loud outer inner s')
    (known : ∀ name ∈ s'.free, name ∈ (scope :: scopes).flatten)
    (fresh : ∀ name ∈ s'.bound, name ∉ (scope :: scopes).flatten) :
    s'.Renamed loud (scopes.map Naming.same) (Naming.same scope) s' := by
  match s with
  | .declare .. =>
      obtain ⟨localName, value', inValue, _, _, rfl⟩ := renamed
      have apart : localName ∉ (scope :: scopes).flatten := fresh localName (by simp [Stmt.bound])
      have inScope : localName ∉ scope := fun here => apart (List.mem_append_left _ here)
      refine ⟨localName, value', Expr.Renamed.self (scope :: scopes) _ inValue known, ?_, ?_, rfl⟩
      · simp [Naming.lookup_same, inScope]
      · have names := Naming.locals_same (scope :: scopes)
        rw [List.map_cons] at names
        rw [names]
        exact apart
  | .assign .. =>
      obtain ⟨localName, value', _, inValue, rfl⟩ := renamed
      have inside : localName ∈ (scope :: scopes).flatten := known localName (by simp [Stmt.free])
      have value := Expr.Renamed.self (scope :: scopes) _ inValue fun name here =>
        known name (List.mem_cons_of_mem _ here)
      have found := @Naming.find?_same localName (scope :: scopes)
      rw [if_pos inside] at found
      exact ⟨localName, value', found, value, rfl⟩
  | .evaluate .. =>
      obtain ⟨value', inValue, rfl⟩ | ⟨loudly, payload, mark, payload', rfl, inPayload, rfl⟩ :=
        renamed
      · exact .inl ⟨value', Expr.Renamed.self (scope :: scopes) _ inValue known, rfl⟩
      · exact .inr ⟨loudly, payload', mark, payload', rfl,
          Expr.Renamed.self (scope :: scopes) _ inPayload known, rfl⟩
  | .branch _ thenBranch none _ =>
      obtain ⟨condition', thenBranch', inCondition, inThen, rfl⟩ := renamed
      have test := Expr.Renamed.self (scope :: scopes) _ inCondition fun name here =>
        known name (List.mem_append_left _ here)
      have first := Stmt.Renamed.self [] (scope :: scopes) thenBranch inThen
        (fun name here => known name (List.mem_append_right _ here)) fresh
      exact ⟨condition', thenBranch', test, first, rfl⟩
  | .branch _ thenBranch (some elseBranch) _ =>
      obtain ⟨condition', thenBranch', elseBranch', inCondition, inThen, inElse, rfl⟩ := renamed
      have test := Expr.Renamed.self (scope :: scopes) _ inCondition fun name here =>
        known name (List.mem_append_left _ here)
      have first := Stmt.Renamed.self [] (scope :: scopes) thenBranch inThen
        (fun name here => known name (List.mem_append_right _ (List.mem_append_left _ here)))
        (fun name here => fresh name (List.mem_append_left _ here))
      have second := Stmt.Renamed.self [] (scope :: scopes) elseBranch inElse
        (fun name here => known name (List.mem_append_right _ (List.mem_append_right _ here)))
        (fun name here => fresh name (List.mem_append_right _ here))
      exact ⟨condition', thenBranch', elseBranch', test, first, second, rfl⟩
  | .block body _ =>
      obtain ⟨body', inBody, rfl⟩ := renamed
      exact ⟨body', Stmt.RenamedAll.self [] (scope :: scopes) body inBody known fresh, rfl⟩
  | .loop _ body _ =>
      obtain ⟨condition', body', inCondition, inBody, rfl⟩ := renamed
      have test := Expr.Renamed.self (scope :: scopes) _ inCondition fun name here =>
        known name (List.mem_append_left _ here)
      have rounds := Stmt.Renamed.self [] (scope :: scopes) body inBody
        (fun name here => known name (List.mem_append_right _ here)) fresh
      exact ⟨condition', body', test, rounds, rfl⟩
  | .select _ arms _ =>
      obtain ⟨scrutinee', arms', inScrutinee, inArms, rfl⟩ := renamed
      have value := Expr.Renamed.self (scope :: scopes) _ inScrutinee fun name here =>
        known name (List.mem_append_left _ here)
      have chosen := Arm.RenamedAll.self (scope :: scopes) arms inArms
        (fun name here => known name (List.mem_append_right _ here)) fresh
      exact ⟨scrutinee', arms', value, chosen, rfl⟩
  | .attempt body handler _ =>
      obtain ⟨body', handler', inBody, inHandler, rfl⟩ := renamed
      have first := Stmt.Renamed.self [] (scope :: scopes) body inBody
        (fun name here => known name (List.mem_append_left _ here))
        (fun name here => fresh name (List.mem_append_left _ here))
      have second := Stmt.Renamed.self [] (scope :: scopes) handler inHandler
        (fun name here => known name (List.mem_append_right _ here))
        (fun name here => fresh name (List.mem_append_right _ here))
      exact ⟨body', handler', first, second, rfl⟩

theorem Stmt.RenamedAll.self (scope : List String) (scopes : List (List String))
    (body : List Stmt) {body' : List Stmt} {loud : Bool} {outer : List Naming} {inner : Naming}
    (renamed : Stmt.RenamedAll loud outer inner body body')
    (known : ∀ name ∈ Stmt.freeAll body', name ∈ (scope :: scopes).flatten)
    (fresh : ∀ name ∈ Stmt.boundAll body', name ∉ (scope :: scopes).flatten) :
    Stmt.RenamedAll loud (scopes.map Naming.same) (Naming.same scope) body' body' := by
  match body with
  | [] =>
      have empty : body' = [] := renamed
      rw [empty]
      rfl
  | s :: rest =>
      obtain ⟨s', rest', first, others, rfl⟩ := renamed
      have head := Stmt.Renamed.self scope scopes s first
        (fun name here => known name (List.mem_append_left _ here))
        (fun name here => fresh name (List.mem_append_left _ here))
      have tail := Stmt.RenamedAll.self (scope ++ s'.declared?.toList) scopes rest others
        (by
          intro name here
          by_cases new : s'.declared? = some name
          · simp [new]
          · have old := known name (List.mem_append_right _ (List.mem_filter.mpr ⟨here, by simpa⟩))
            simp only [List.flatten_cons, List.mem_append] at old ⊢
            exact old.imp_left .inl)
        (by
          intro name here present
          have apart := fresh name (List.mem_append_right _ here)
          simp only [List.flatten_cons, List.mem_append, Option.mem_toList] at apart present
          rcases present with (old | new) | old
          · exact apart (.inl old)
          · have unknown := Stmt.RenamedAll.bound_fresh rest others name here
            exact unknown (Naming.declared_mem_locals_after first new)
          · exact apart (.inr old))
      refine ⟨s', rest', head, ?_, rfl⟩
      rw [Naming.after_same]
      exact tail

theorem Arm.RenamedAll.self (scopes : List (List String)) (arms : List Arm) {arms' : List Arm}
    {namings : List Naming} (renamed : Arm.RenamedAll namings arms arms')
    (known : ∀ name ∈ Arm.freeAll arms', name ∈ scopes.flatten)
    (fresh : ∀ name ∈ Arm.boundAll arms', name ∉ scopes.flatten) :
    Arm.RenamedAll (scopes.map Naming.same) arms' arms' := by
  match arms with
  | [] =>
      have empty : arms' = [] := renamed
      rw [empty]
      rfl
  | .mk none body :: rest =>
      obtain ⟨body', rest', inBody, inRest, rfl⟩ := renamed
      have first := Stmt.Renamed.self [] scopes body inBody
        (fun name here => known name (List.mem_append_left _ here))
        (fun name here => fresh name (List.mem_append_left _ here))
      have others := Arm.RenamedAll.self scopes rest inRest
        (fun name here => known name (List.mem_append_right _ here))
        (fun name here => fresh name (List.mem_append_right _ here))
      exact ⟨body', rest', first, others, rfl⟩
  | .mk (some _) body :: rest =>
      obtain ⟨pattern', body', rest', inPattern, inBody, inRest, rfl⟩ := renamed
      have test := Expr.Renamed.self scopes _ inPattern fun name here =>
        known name (List.mem_append_left _ here)
      have first := Stmt.Renamed.self [] scopes body inBody
        (fun name here => known name (List.mem_append_right _ (List.mem_append_left _ here)))
        (fun name here => fresh name (List.mem_append_left _ here))
      have others := Arm.RenamedAll.self scopes rest inRest
        (fun name here => known name (List.mem_append_right _ (List.mem_append_right _ here)))
        (fun name here => fresh name (List.mem_append_right _ here))
      exact ⟨pattern', body', rest', test, first, others, rfl⟩

end

end Resumable
