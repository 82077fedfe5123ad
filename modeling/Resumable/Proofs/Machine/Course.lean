import Resumable.Proofs.Machine.Steps

/-! The course of a resume: what its code does, one event after the other, up to where it leaves or
fails. -/

namespace Resumable

/-- A value that was carried to or from the slot of a variable. -/
structure Carried where
  var : VarId
  slot : Slot
  encoding : Encoding
  value : Value

/-- A store and a load count once they are done, a fragment once it is begun. A resume is left in
some environment. -/
inductive Event where
  | fragment (fragment : Fragment)
  | store (carried : Carried)
  | load (carried : Carried)
  | result (payload : Expr)
  | goTo (target : Target)
  | leave (env : Env)

/-- The events of running code, with how it ended. -/
structure Course where
  events : List Event
  result : Except Failure Control
  after : Activation

namespace Course

def behind (events : List Event) (course : Course) : Course :=
  { course with events := events ++ course.events }

@[simp] theorem behind_nil (course : Course) : course.behind [] = course := rfl

@[simp] theorem behind_behind (first second : List Event) (course : Course) :
    (course.behind second).behind first = course.behind (first ++ second) := by
  simp [behind]

def pop (course : Course) : Course := { course with after := course.after.pop }

def ending (session : Session) (course : Course) : Course :=
  { course with after := { course.after with session } }

@[simp] theorem behind_result (events : List Event) (course : Course) :
    (course.behind events).result = course.result := rfl

@[simp] theorem behind_after (events : List Event) (course : Course) :
    (course.behind events).after = course.after := rfl

@[simp] theorem behind_events (events : List Event) (course : Course) :
    (course.behind events).events = events ++ course.events := rfl

@[simp] theorem pop_behind (events : List Event) (course : Course) :
    (course.behind events).pop = course.pop.behind events := rfl

def andThen (course : Course) (next : Activation → Course) : Course :=
  match course.result with
  | .ok .onward => (next course.after).behind course.events
  | .ok .left => course
  | .error _ => course

theorem andThen_of_ended {course : Course} (ended : course.result ≠ .ok .onward)
    (next : Activation → Course) : course.andThen next = course := by
  rcases course with ⟨events, _ | _ | _, after⟩
  · rfl
  · exact absurd rfl ended
  · rfl

theorem andThen_behind (events : List Event) (course : Course) (next : Activation → Course) :
    (course.behind events).andThen next = (course.andThen next).behind events := by
  rcases course with ⟨more, _ | _ | _, after⟩
  · rfl
  · exact (behind_behind events more (next after)).symm
  · rfl

theorem andThen_assoc (course : Course) (next last : Activation → Course) :
    (course.andThen next).andThen last =
      course.andThen fun activation => (next activation).andThen last := by
  rcases course with ⟨events, _ | _ | _, after⟩
  · rfl
  · exact andThen_behind events (next after) last
  · rfl

end Course

namespace Activation

def withSession (activation : Activation) (session : Session) : Activation :=
  { activation with session }

@[simp] theorem withSession_session (activation : Activation) (session : Session) :
    (activation.withSession session).session = session := rfl

@[simp] theorem withSession_self (activation : Activation) :
    activation.withSession activation.session = activation := rfl

@[simp] theorem withSession_withSession (activation : Activation) (first second : Session) :
    (activation.withSession first).withSession second = activation.withSession second := rfl

end Activation

namespace Emitted

mutual

def course (slots : SlotTable) : Emitted → Activation → Course
  | .branch condition thenBlock elseBlock, activation =>
    match condition.evalCondition activation.session.env with
    | .error failure => ⟨[.fragment (.condition condition)], .error failure, activation⟩
    | .ok test => (if test then courseAll slots thenBlock activation.push
        else courseAll slots elseBlock activation.push).pop.behind
          [.fragment (.condition condition)]
  | .store var name slot encoding, activation =>
    let done := (store var name slot encoding).exec slots activation
    match activation.session.env.get? name, done.1 with
    | some value, .ok _ => ⟨[.store ⟨var, slot, encoding, value⟩], done.1, done.2⟩
    | _, _ => ⟨[], done.1, done.2⟩
  | .load var name type slot encoding, activation =>
    let done := (load var name type slot encoding).exec slots activation
    match (Activate.loadValue slots slot encoding activation).1 with
    | .ok value => ⟨[.load ⟨var, slot, encoding, value⟩], done.1, done.2⟩
    | .error _ => ⟨[], done.1, done.2⟩
  | .run statement, activation =>
    let done := (run statement).exec slots activation
    ⟨[.fragment (.statement statement)], done.1, done.2⟩
  | .result e, activation =>
    let done := (result e).exec slots activation
    ⟨[.result e], done.1, done.2⟩
  | .goTo target, activation =>
    let done := (goTo target).exec slots activation
    ⟨[.goTo target], done.1, done.2⟩
  | .leave, activation => ⟨[.leave activation.session.env], .ok .left, activation⟩

def courseAll (slots : SlotTable) : List Emitted → Activation → Course
  | [], activation => ⟨[], .ok .onward, activation⟩
  | code :: rest, activation =>
    (code.course slots activation).andThen (courseAll slots rest)

end

variable {slots : SlotTable} {activation : Activation}

@[simp] theorem courseAll_nil : courseAll slots [] activation = ⟨[], .ok .onward, activation⟩ := rfl

theorem courseAll_cons (code : Emitted) (rest : List Emitted) :
    courseAll slots (code :: rest) activation =
      (code.course slots activation).andThen (courseAll slots rest) := rfl

theorem courseAll_append (first second : List Emitted) :
    courseAll slots (first ++ second) activation =
      (courseAll slots first activation).andThen (courseAll slots second) := by
  induction first generalizing activation with
  | nil => rfl
  | cons code rest ih =>
      rw [List.cons_append, courseAll_cons, courseAll_cons, Course.andThen_assoc]
      congr 1
      funext after
      exact ih

mutual

theorem course_ends (slots : SlotTable) (code : Emitted) (activation : Activation) :
    ((code.course slots activation).result, (code.course slots activation).after) =
      code.exec slots activation := by
  cases code with
  | branch condition thenBlock elseBlock =>
      rw [exec_branch, course]
      rcases condition.evalCondition activation.session.env with failure | _ | _
      · rfl
      · have inner := courseAll_ends slots elseBlock activation.push
        change _ = Activate.inScope (execAll slots elseBlock) activation
        rw [Activate.inScope_apply, ← inner]
        rfl
      · have inner := courseAll_ends slots thenBlock activation.push
        change _ = Activate.inScope (execAll slots thenBlock) activation
        rw [Activate.inScope_apply, ← inner]
        rfl
  | store var name slot encoding =>
      rw [course]
      split <;> rfl
  | load var name type slot encoding =>
      rw [course]
      split <;> rfl
  | run statement => rfl
  | result e => rfl
  | goTo target => rfl
  | leave => rfl

theorem courseAll_ends (slots : SlotTable) (codes : List Emitted) (activation : Activation) :
    ((courseAll slots codes activation).result, (courseAll slots codes activation).after) =
      execAll slots codes activation := by
  cases codes with
  | nil => rfl
  | cons code rest =>
      have first := course_ends slots code activation
      rw [execAll_cons, courseAll_cons, ← first]
      rcases code.course slots activation with ⟨events, _ | _ | _, after⟩
      · rfl
      · exact courseAll_ends slots rest after
      · rfl

end

section Forms

variable (rest : List Emitted)

theorem courseAll_run (statement : Stmt) : courseAll slots (run statement :: rest) activation =
    match statement.exec activation.session with
    | (.ok _, session) => (courseAll slots rest (activation.withSession session)).behind
        [.fragment (.statement statement)]
    | (.error failure, session) =>
      ⟨[.fragment (.statement statement)], .error failure, activation.withSession session⟩ := by
  rw [courseAll_cons, course, exec_run]
  rcases statement.exec activation.session with ⟨_ | _, session⟩ <;> rfl

theorem courseAll_branch (condition : Expr) (thenBlock elseBlock : List Emitted) :
    courseAll slots (branch condition thenBlock elseBlock :: rest) activation =
      match condition.evalCondition activation.session.env with
      | .error failure => ⟨[.fragment (.condition condition)], .error failure, activation⟩
      | .ok test => ((courseAll slots (if test then thenBlock else elseBlock)
          activation.push).pop.andThen (courseAll slots rest)).behind
            [.fragment (.condition condition)] := by
  rw [courseAll_cons, course]
  rcases condition.evalCondition activation.session.env with failure | _ | _
  · rfl
  · exact Course.andThen_behind _ _ _
  · exact Course.andThen_behind _ _ _

theorem courseAll_store (var : VarId) (name : String) (slot : Slot) (encoding : Encoding) :
    courseAll slots (store var name slot encoding :: rest) activation =
      match activation.session.env.get? name with
      | none => ⟨[], .error { fault := .run (.unbound name) }, activation⟩
      | some value => (match Activate.storeValue slots slot encoding value activation with
        | (.ok _, after) =>
          (courseAll slots rest after).behind [.store ⟨var, slot, encoding, value⟩]
        | (.error failure, after) => ⟨[], .error failure, after⟩) := by
  rw [courseAll_cons, course, exec_store]
  rcases activation.session.env.get? name with _ | value
  · rfl
  · rcases stored : Activate.storeValue slots slot encoding value activation with ⟨_ | _, after⟩ <;>
      simp only [stored] <;> rfl

theorem courseAll_load (var : VarId) (name : String) (type : DataType) (slot : Slot)
    (encoding : Encoding) : courseAll slots (load var name type slot encoding :: rest) activation =
      match Activate.loadValue slots slot encoding activation with
      | (.ok value, after) => (courseAll slots rest (after.withSession
          { after.session with env := after.session.env.define name value })).behind
            [.load ⟨var, slot, encoding, value⟩]
      | (.error failure, after) => ⟨[], .error failure, after⟩ := by
  rw [courseAll_cons, course, exec_load]
  rcases Activate.loadValue slots slot encoding activation with ⟨_ | _, after⟩ <;> rfl

theorem courseAll_result (e : Expr) : courseAll slots (result e :: rest) activation =
    match e.eval activation.session.env with
    | .ok value => (courseAll slots rest { activation with result := some value }).behind [.result e]
    | .error failure => ⟨[.result e], .error failure, activation⟩ := by
  rw [courseAll_cons, course, exec_result]
  rcases e.eval activation.session.env with _ | _ <;> rfl

end Forms

end Emitted
end Resumable
