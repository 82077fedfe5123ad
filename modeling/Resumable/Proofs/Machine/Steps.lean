import Resumable.Eval.Instance
import Resumable.Proofs.Eval.Steps

/-! What each piece of emitted code does to a resume, one equation for each form. -/

namespace Resumable

namespace Activation

def push (activation : Activation) : Activation :=
  { activation with session := { activation.session with env := activation.session.env.push } }

def pop (activation : Activation) : Activation :=
  { activation with session := { activation.session with env := activation.session.env.pop } }

end Activation

namespace Activate

variable {α β : Type}

theorem bind_apply (x : Activate α) (f : α → Activate β) (activation : Activation) :
    (x >>= f) activation = match x activation with
      | (.ok a, after) => f a after
      | (.error failure, after) => (.error failure, after) := by
  have opened : (x >>= f) activation = ExceptT.bindCont f (x activation).1 (x activation).2 := rfl
  rw [opened]
  rcases x activation with ⟨_ | _, after⟩ <;> rfl

theorem get_apply (activation : Activation) :
    (get : Activate Activation) activation = (.ok activation, activation) := rfl

theorem require_apply (result : Activation → Except Failure α) (activation : Activation) :
    require result activation = (result activation, activation) := rfl

theorem onSession_apply (code : Exec α) (activation : Activation) :
    onSession code activation =
      ((code activation.session).1, { activation with session := (code activation.session).2 }) :=
  rfl

theorem inScope_apply (code : Activate α) (activation : Activation) :
    inScope code activation = ((code activation.push).1, (code activation.push).2.pop) := rfl

theorem lookup_apply (name : String) (activation : Activation) :
    lookup name activation = match activation.session.env.get? name with
      | some value => (.ok value, activation)
      | none => (.error { fault := .run (.unbound name) }, activation) := by
  rw [lookup, bind_apply, get_apply]
  dsimp only
  cases activation.session.env.get? name <;> rfl

theorem storeValue_apply (slots : SlotTable) (slot : Slot) (encoding : Encoding) (value : Value)
    (activation : Activation) :
    storeValue slots slot encoding value activation = match slot.stack with
      | .value => (match value.encode encoding with
        | .ok word =>
          if slot.index < activation.words.length then
            (.ok (), { activation with words := activation.words.set slot.index word })
          else (.error { fault := .run (.outsideFrame slots.valueStack slot.index) }, activation)
        | .error fault => (.error { fault := .run fault }, activation))
      | .reference =>
        if slot.index < activation.references.length then
          (.ok (), { activation with references := activation.references.set slot.index value })
        else
          (.error { fault := .run (.outsideFrame slots.referenceStack slot.index) }, activation) := by
  unfold storeValue
  cases slot.stack with
  | value =>
      dsimp only
      rw [bind_apply, require_apply]
      cases value.encode encoding with
      | error => rfl
      | ok word =>
          dsimp only [RunFault.at]
          rw [bind_apply, get_apply]
          dsimp only
          split <;> rfl
  | reference =>
      dsimp only
      rw [bind_apply, get_apply]
      dsimp only
      split <;> rfl

theorem loadValue_apply (slots : SlotTable) (slot : Slot) (encoding : Encoding)
    (activation : Activation) :
    loadValue slots slot encoding activation = match slot.stack with
      | .value => (match activation.words[slot.index]? with
        | some word => (match Value.decode encoding word with
          | .ok value => (.ok value, activation)
          | .error fault => (.error { fault := .run fault }, activation))
        | none => (.error { fault := .run (.outsideFrame slots.valueStack slot.index) }, activation))
      | .reference => (match activation.references[slot.index]? with
        | some value => (.ok value, activation)
        | none =>
          (.error { fault := .run (.outsideFrame slots.referenceStack slot.index) }, activation)) := by
  unfold loadValue
  cases slot.stack with
  | value =>
      dsimp only
      rw [bind_apply, get_apply]
      dsimp only
      cases activation.words[slot.index]? with
      | none => rfl
      | some word =>
          dsimp only
          rw [require]
          cases Value.decode encoding word <;> rfl
  | reference =>
      dsimp only
      rw [bind_apply, get_apply]
      dsimp only
      cases activation.references[slot.index]? <;> rfl

end Activate

namespace Emitted

variable (slots : SlotTable) (activation : Activation)

theorem exec_run (statement : Stmt) : (run statement).exec slots activation =
    match statement.exec activation.session with
    | (.ok _, session) => (.ok .onward, { activation with session })
    | (.error failure, session) => (.error failure, { activation with session }) := by
  rw [exec, Activate.bind_apply, Activate.onSession_apply]
  rcases statement.exec activation.session with ⟨_ | _, session⟩ <;> rfl

theorem exec_branch (condition : Expr) (thenBlock elseBlock : List Emitted) :
    (branch condition thenBlock elseBlock).exec slots activation =
      match condition.evalCondition activation.session.env with
      | .ok true => Activate.inScope (execAll slots thenBlock) activation
      | .ok false => Activate.inScope (execAll slots elseBlock) activation
      | .error failure => (.error failure, activation) := by
  rw [exec, Activate.bind_apply, Activate.onSession_apply, Exec.condition_apply]
  rcases condition.evalCondition activation.session.env with _ | _ | _ <;> rfl

theorem exec_store (var : VarId) (name : String) (slot : Slot) (encoding : Encoding) :
    (store var name slot encoding).exec slots activation =
      match activation.session.env.get? name with
      | some value => (match Activate.storeValue slots slot encoding value activation with
        | (.ok _, after) => (.ok .onward, after)
        | (.error failure, after) => (.error failure, after))
      | none => (.error { fault := .run (.unbound name) }, activation) := by
  rw [exec, Activate.bind_apply, Activate.lookup_apply]
  cases activation.session.env.get? name with
  | none => rfl
  | some value =>
      dsimp only
      rw [Activate.bind_apply]
      rcases Activate.storeValue slots slot encoding value activation with ⟨_ | _, after⟩ <;> rfl

theorem exec_load (var : VarId) (name : String) (type : DataType) (slot : Slot)
    (encoding : Encoding) : (load var name type slot encoding).exec slots activation =
      match Activate.loadValue slots slot encoding activation with
      | (.ok value, after) => (.ok .onward, { after with
          session := { after.session with env := after.session.env.define name value } })
      | (.error failure, after) => (.error failure, after) := by
  rw [exec, Activate.bind_apply]
  rcases Activate.loadValue slots slot encoding activation with ⟨_ | value, after⟩
  · rfl
  · dsimp only
    rw [Activate.bind_apply, Activate.onSession_apply, Exec.define_apply]
    rfl

theorem exec_result (e : Expr) : (result e).exec slots activation =
    match e.eval activation.session.env with
    | .ok value => (.ok .onward, { activation with result := some value })
    | .error failure => (.error failure, activation) := by
  rw [exec, Activate.bind_apply, Activate.onSession_apply, Exec.value_apply]
  cases e.eval activation.session.env <;> rfl

theorem execAll_cons (code : Emitted) (rest : List Emitted) :
    execAll slots (code :: rest) activation = match code.exec slots activation with
      | (.ok .left, after) => (.ok .left, after)
      | (.ok .onward, after) => execAll slots rest after
      | (.error failure, after) => (.error failure, after) := by
  rw [execAll, Activate.bind_apply]
  rcases code.exec slots activation with ⟨_ | _ | _, after⟩ <;> rfl

end Emitted

end Resumable
