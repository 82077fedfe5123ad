import Resumable.Eval.Exec
import Resumable.Proofs.Outcome

/-! The failures that a body causes by itself: a value of the wrong kind, arithmetic without a
result, an unknown builtin or a loop without an end. -/

namespace Resumable

def RunFault.isOwn : RunFault → Bool
  | condition _ | overflow | overflowIn _ | overflowInAbs | divisionByZero => true
  | unaryOperand .. | incomparable .. | binaryOperands .. | noBuiltin .. | endlessLoop _ => true
  | _ => false

/-- Whether a body can fail in this way, wherever it runs. -/
def Failure.Own (failure : Failure) : Prop :=
  ∃ fault, failure.fault = .run fault ∧ fault.isOwn = true

theorem exactOr_isOwn {fault found : RunFault} {n : Int} (own : fault.isOwn = true)
    (failed : exactOr fault n = .error found) : found.isOwn = true := by
  unfold exactOr at failed
  split at failed
  · cases failed
  · cases failed
    exact own

theorem UnaryOp.apply_isOwn {op : UnaryOp} {operand : Value} {fault : RunFault}
    (failed : op.apply operand = .error fault) : fault.isOwn = true := by
  unfold UnaryOp.apply at failed
  split at failed
  · exact exactOr_isOwn rfl failed
  · cases failed
  · cases failed
  · cases failed
    rfl

namespace BinaryOp

theorem onInts_isOwn {op : BinaryOp} {a b : Int64} {fault : RunFault}
    (failed : onInts op a b = .error fault) : fault.isOwn = true := by
  unfold onInts at failed
  split at failed
  · exact exactOr_isOwn rfl failed
  · exact exactOr_isOwn rfl failed
  · exact exactOr_isOwn rfl failed
  · split at failed
    · cases failed
      rfl
    · exact exactOr_isOwn rfl failed
  · split at failed
    · cases failed
      rfl
    · split at failed
      · cases failed
        rfl
      · exact exactOr_isOwn rfl failed
  · cases failed
    rfl

theorem onDoubles_isOwn {op : BinaryOp} {a b : Double} {fault : RunFault}
    (failed : onDoubles op a b = .error fault) : fault.isOwn = true := by
  unfold onDoubles at failed
  split at failed <;> cases failed
  rfl

theorem order_isOwn {a b : Value} {fault : RunFault} (failed : order a b = .error fault) :
    fault.isOwn = true := by
  unfold order at failed
  split at failed <;> cases failed
  rfl

theorem onNumbers_isOwn {op : BinaryOp} {a b : Value} {fault : RunFault}
    (failed : onNumbers op a b = .error fault) : fault.isOwn = true := by
  unfold onNumbers at failed
  split at failed
  · unfold compareValues at failed
    cases ordered : order a b with
    | ok ordering =>
        rw [ordered] at failed
        cases failed
    | error found =>
        rw [ordered] at failed
        cases failed
        exact order_isOwn ordered
  · split at failed
    · exact onInts_isOwn failed
    · exact onDoubles_isOwn failed
    · cases failed
      rfl

theorem apply_isOwn {op : BinaryOp} {a b : Value} {fault : RunFault}
    (failed : op.apply a b = .error fault) : fault.isOwn = true := by
  unfold BinaryOp.apply at failed
  split at failed
  · cases failed
  · cases failed
  · cases failed
  · cases failed
  · exact onNumbers_isOwn failed
  · exact onNumbers_isOwn failed
  · exact onNumbers_isOwn failed

end BinaryOp

theorem callBuiltin_isOwn {name : String} {args : List Value} {fault : RunFault}
    (failed : callBuiltin name args = .error fault) : fault.isOwn = true := by
  unfold callBuiltin at failed
  split at failed
  · exact exactOr_isOwn rfl failed
  · cases failed
  · cases failed
  · cases failed
  · cases failed
  · cases failed
  · cases failed
  · cases failed
  · cases failed
    rfl

theorem RunFault.at_own {α : Type} {location : Location} {result : Except RunFault α}
    {failure : Failure} (own : ∀ fault, result = .error fault → fault.isOwn = true)
    (failed : RunFault.at location result = .error failure) : failure.Own := by
  cases result with
  | ok => cases failed
  | error fault =>
      cases failed
      exact ⟨fault, rfl, own fault rfl⟩

theorem Expr.truth_own {e : Expr} {value : Value} {failure : Failure}
    (failed : e.truth value = .error failure) : failure.Own := by
  unfold Expr.truth at failed
  split at failed
  · cases failed
  · cases failed
    exact ⟨_, rfl, rfl⟩

section Operands

variable {P : Failure → Prop} {env : Env} {failure : Failure}

theorem Expr.truth_bind_fails {e : Expr} {next : Bool → Except Failure Value}
    (own : ∀ {found : Failure}, found.Own → P found)
    (inside : ∀ found, e.eval env = .error found → P found)
    (after : ∀ value, next value = .error failure → P failure)
    (failed : (do let value ← e.truth (← e.eval env); next value) = .error failure) :
    P failure := by
  rcases failed_bind failed with evaluation | ⟨v, _, rest⟩
  · exact inside failure evaluation
  · rcases failed_bind rest with test | ⟨value, _, last⟩
    · exact own (Expr.truth_own test)
    · exact after value last

theorem Expr.eval_binary_fails {op : BinaryOp} {left right : Expr} {mark : Mark}
    (own : ∀ {found : Failure}, found.Own → P found)
    (inLeft : ∀ found, left.eval env = .error found → P found)
    (inRight : ∀ found, right.eval env = .error found → P found)
    (failed : (Expr.binary op left right mark).eval env = .error failure) : P failure := by
  have second : ∀ {found}, (do return Value.bool (← right.truth (← right.eval env))) =
      Except.error found → P found := by
    intro found failed
    exact Expr.truth_bind_fails own inRight (fun _ impossible => by cases impossible) failed
  have strict : ∀ {found}, (do
      let a ← left.eval env
      let b ← right.eval env
      RunFault.at mark.location (op.apply a b)) = .error found → P found := by
    intro found failed
    rcases failed_bind failed with first | ⟨a, _, rest⟩
    · exact inLeft found first
    · rcases failed_bind rest with last | ⟨b, _, applied⟩
      · exact inRight found last
      · exact own (RunFault.at_own (fun _ => BinaryOp.apply_isOwn) applied)
  cases op with
  | and =>
      rw [Expr.eval] at failed
      refine Expr.truth_bind_fails own inLeft (fun value rest => ?_) failed
      cases value with
      | false => cases rest
      | true => exact second rest
  | or =>
      rw [Expr.eval] at failed
      refine Expr.truth_bind_fails own inLeft (fun value rest => ?_) failed
      cases value with
      | false => exact second rest
      | true => cases rest
  | _ => exact strict failed

end Operands

def Failure.Bound (failure : Failure) : Prop :=
  ∀ name, failure.fault ≠ .run (.unbound name) ∧ failure.fault ≠ .run (.unboundTarget name)

theorem Failure.Own.bound {failure : Failure} (own : failure.Own) : failure.Bound := by
  obtain ⟨fault, same, isOwn⟩ := own
  intro name
  rw [same]
  constructor <;> rintro ⟨⟩ <;> cases isOwn

end Resumable
