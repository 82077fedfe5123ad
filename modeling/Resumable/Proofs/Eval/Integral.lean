import Mathlib.Algebra.Ring.Int.Defs
import Resumable.Eval.Exec
import Resumable.Proofs.Program.Payloads

/-! Arithmetic on integers. Evaluation gives the mathematical value wherever every step on the way
has one that fits in a word, and fails in all other cases. -/

namespace Resumable

def InWord (n : Int) : Prop := -2 ^ 63 ≤ n ∧ n < 2 ^ 63

def BinaryOp.isArithmetic : BinaryOp → Bool
  | add | sub | mul | div | rem => true
  | _ => false

/-- The mathematical value. Quotients go toward zero, and a remainder has the sign of what is
divided. -/
def BinaryOp.intValue (op : BinaryOp) (a b : Int) : Int :=
  match op with
  | add => a + b
  | sub => a - b
  | mul => a * b
  | div => a.tdiv b
  | rem => a.tmod b
  | _ => 0

def builtinIntValue (name : String) (args : List Int) : Int :=
  match name, args with
  | "abs", [a] => a.natAbs
  | "max", [a, b] => max a b
  | "min", [a, b] => min a b
  | _, _ => 0

mutual

def Expr.intValue (env : Env) : Expr → Int
  | .literal (.int n) _ => n.toInt
  | .reference name _ =>
    match env.get? name with
    | some (.int n) => n.toInt
    | _ => 0
  | .unary .neg operand _ => -operand.intValue env
  | .binary op left right _ => op.intValue (left.intValue env) (right.intValue env)
  | .call name args _ => builtinIntValue name (Expr.intValues env args)
  | _ => 0

def Expr.intValues (env : Env) : List Expr → List Int
  | [] => []
  | e :: rest => e.intValue env :: Expr.intValues env rest

end

/-- Expressions over integers: literals, names of integers, and arithmetic on them. -/
inductive Expr.Integral (env : Env) : Expr → Prop
  | literal (n : Int64) (mark : Mark) : Integral env (.literal (.int n) mark)
  | reference {name : String} {n : Int64} (mark : Mark) (bound : env.get? name = some (.int n)) :
    Integral env (.reference name mark)
  | neg {operand : Expr} (mark : Mark) : Integral env operand →
    Integral env (.unary .neg operand mark)
  | binary {op : BinaryOp} {left right : Expr} (mark : Mark) (arithmetic : op.isArithmetic = true) :
    Integral env left → Integral env right → Integral env (.binary op left right mark)
  | abs {arg : Expr} (mark : Mark) : Integral env arg → Integral env (.call "abs" [arg] mark)
  | max {first second : Expr} (mark : Mark) : Integral env first → Integral env second →
    Integral env (.call "max" [first, second] mark)
  | min {first second : Expr} (mark : Mark) : Integral env first → Integral env second →
    Integral env (.call "min" [first, second] mark)

/-- The value of a division exists, and the quotient that goes with a remainder fits in a word. -/
def BinaryOp.Divides (op : BinaryOp) (a b : Int) : Prop :=
  (op = .div ∨ op = .rem → b ≠ 0) ∧ ¬(op = .rem ∧ a = -2 ^ 63 ∧ b = -1)

/-- Nothing is lost in the last step of an evaluation. -/
def Expr.Exact (env : Env) (e : Expr) : Prop :=
  InWord (e.intValue env) ∧
    match e with
    | .binary op left right _ => op.Divides (left.intValue env) (right.intValue env)
    | _ => True

def RunFault.isArithmetic : RunFault → Bool
  | overflow | overflowIn _ | overflowInAbs | divisionByZero => true
  | _ => false

def Failure.Arithmetic (failure : Failure) : Prop :=
  ∃ fault, failure.fault = .run fault ∧ fault.isArithmetic = true

/-- A result that is the integer `n` where a condition holds, and a failure where it does not. -/
structure ExactWhere {ε : Type} (fails : ε → Prop) (holds : Prop) (n : Int)
    (result : Except ε Value) : Prop where
  value : holds → ∃ z : Int64, z.toInt = n ∧ result = .ok (.int z)
  failure : ¬holds → ∃ error, fails error ∧ result = .error error

namespace ExactWhere

variable {ε : Type} {fails : ε → Prop} {p q : Prop} {n m : Int} {result : Except ε Value}

theorem congr (exact : ExactWhere fails p n result) (same : q ↔ p) :
    ExactWhere fails q n result :=
  ⟨fun holds => exact.value (same.mp holds),
    fun beyond => exact.failure fun holds => beyond (same.mpr holds)⟩

theorem bind {next : Value → Except ε Value} (first : ExactWhere fails p n result)
    (rest : ∀ z : Int64, z.toInt = n → ExactWhere fails q m (next (.int z))) :
    ExactWhere fails (p ∧ q) m (result >>= next) := by
  constructor
  · rintro ⟨before, after⟩
    obtain ⟨z, same, rfl⟩ := first.value before
    exact (rest z same).value after
  · intro beyond
    by_cases before : p
    · obtain ⟨z, same, rfl⟩ := first.value before
      exact (rest z same).failure fun after => beyond ⟨before, after⟩
    · obtain ⟨error, failed, rfl⟩ := first.failure before
      exact ⟨error, failed, rfl⟩

theorem refuse {error : ε} (failed : fails error) (beyond : ¬p) :
    ExactWhere fails p n (.error error) :=
  ⟨fun holds => absurd holds beyond, fun _ => ⟨error, failed, rfl⟩⟩

theorem located {result : Except RunFault Value}
    (exact : ExactWhere (fun fault => fault.isArithmetic = true) p n result) (location : Location) :
    ExactWhere Failure.Arithmetic p n (RunFault.at location result) := by
  constructor
  · intro holds
    obtain ⟨z, same, rfl⟩ := exact.value holds
    exact ⟨z, same, rfl⟩
  · intro beyond
    obtain ⟨fault, arithmetic, rfl⟩ := exact.failure beyond
    exact ⟨⟨.run fault, location⟩, ⟨fault, rfl, arithmetic⟩, rfl⟩

end ExactWhere

section Words

theorem inWord_toInt (z : Int64) : InWord z.toInt := ⟨z.le_toInt, z.toInt_lt⟩

theorem ExactWhere.word {ε : Type} {fails : ε → Prop} {n : Int} {z : Int64} (same : z.toInt = n) :
    ExactWhere fails (InWord n) n (.ok (.int z)) :=
  ⟨fun _ => ⟨z, same, rfl⟩, fun beyond => absurd (same ▸ inWord_toInt z) beyond⟩

theorem exists_word {n : Int} (fits : InWord n) : (Int64.ofInt n).toInt = n :=
  Int64.toInt_ofInt_of_le fits.1 fits.2

theorem exactOr_exact {fault : RunFault} (arithmetic : fault.isArithmetic = true) (n : Int) :
    ExactWhere (fun fault => fault.isArithmetic = true) (InWord n) n (exactOr fault n) := by
  have bounds : (Int64.minValue.toInt ≤ n && n ≤ Int64.maxValue.toInt) = true ↔ InWord n := by
    rw [Bool.and_eq_true, decide_eq_true_iff, decide_eq_true_iff, Int64.toInt_minValue,
      Int64.toInt_maxValue, InWord]
    omega
  constructor
  · intro fits
    refine ⟨Int64.ofInt n, exists_word fits, ?_⟩
    rw [exactOr, checkedWord?, if_pos (bounds.mpr fits)]
  · intro beyond
    refine ⟨fault, arithmetic, ?_⟩
    rw [exactOr, checkedWord?, if_neg fun inside => beyond (bounds.mp inside)]

theorem UnaryOp.neg_exact (a : Int64) : ExactWhere (fun fault => fault.isArithmetic = true)
    (InWord (-a.toInt)) (-a.toInt) (UnaryOp.neg.apply (.int a)) :=
  exactOr_exact rfl _

theorem BinaryOp.onInts_exact {op : BinaryOp} (arithmetic : op.isArithmetic = true) (a b : Int64) :
    ExactWhere (fun fault => fault.isArithmetic = true)
      (InWord (op.intValue a.toInt b.toInt) ∧ op.Divides a.toInt b.toInt)
      (op.intValue a.toInt b.toInt) (op.onInts a b) := by
  have zero : b = 0 ↔ b.toInt = 0 := by rw [← Int64.toInt_inj, Int64.toInt_zero]
  have least : a = Int64.minValue ↔ a.toInt = -2 ^ 63 := by
    rw [← Int64.toInt_inj, Int64.toInt_minValue]
  have negative : b = -1 ↔ b.toInt = -1 := by
    rw [← Int64.toInt_inj]
    rfl
  cases op with
  | add | sub | mul =>
      refine (exactOr_exact rfl _).congr (and_iff_left ?_)
      simp [Divides]
  | div =>
      rw [onInts]
      split
      · rename_i same
        exact .refuse rfl fun holds => holds.2.1 (.inl rfl) (zero.mp same)
      · rename_i other
        refine (exactOr_exact rfl _).congr (and_iff_left ?_)
        simpa [Divides, ← zero] using other
  | rem =>
      rw [onInts]
      split
      · rename_i same
        exact .refuse rfl fun holds => holds.2.1 (.inr rfl) (zero.mp same)
      · rename_i other
        split
        · rename_i both
          obtain ⟨first, second⟩ := Bool.and_eq_true_iff.mp both
          exact .refuse rfl fun holds => holds.2.2 ⟨rfl, least.mp (of_decide_eq_true first),
            negative.mp (of_decide_eq_true second)⟩
        · rename_i apart
          refine (exactOr_exact rfl _).congr (and_iff_left ?_)
          simp only [Bool.and_eq_true, decide_eq_true_iff, least, negative] at apart
          exact ⟨fun _ => mt zero.mpr other, fun ⟨_, both⟩ => apart both⟩
  | _ => cases arithmetic

theorem BinaryOp.apply_ints {op : BinaryOp} (arithmetic : op.isArithmetic = true) (a b : Int64) :
    op.apply (.int a) (.int b) = op.onInts a b := by
  cases op <;> first | rfl | cases arithmetic

theorem abs_exact (a : Int64) : ExactWhere (fun fault => fault.isArithmetic = true)
    (InWord (builtinIntValue "abs" [a.toInt])) (builtinIntValue "abs" [a.toInt])
    (callBuiltin "abs" [.int a]) :=
  exactOr_exact rfl _

theorem max_exact (a b : Int64) : ExactWhere (fun fault => fault.isArithmetic = true)
    (InWord (builtinIntValue "max" [a.toInt, b.toInt])) (builtinIntValue "max" [a.toInt, b.toInt])
    (callBuiltin "max" [.int a, .int b]) := by
  have larger : (if a ≤ b then b else a).toInt = max a.toInt b.toInt := by
    simp only [Int64.le_iff_toInt_le]
    split <;> omega
  exact .word larger

theorem min_exact (a b : Int64) : ExactWhere (fun fault => fault.isArithmetic = true)
    (InWord (builtinIntValue "min" [a.toInt, b.toInt])) (builtinIntValue "min" [a.toInt, b.toInt])
    (callBuiltin "min" [.int a, .int b]) := by
  have smaller : (if a ≤ b then a else b).toInt = min a.toInt b.toInt := by
    simp only [Int64.le_iff_toInt_le]
    split <;> omega
  exact .word smaller

end Words

namespace Expr

variable {env : Env} {e left right : Expr} {op : BinaryOp} {mark : Mark}

theorem eval_arithmetic (arithmetic : op.isArithmetic = true) :
    (binary op left right mark).eval env = (left.eval env >>= fun a => right.eval env >>= fun b =>
      RunFault.at mark.location (op.apply a b)) := by
  cases op <;> first | rfl | cases arithmetic

theorem eval_call_one (name : String) (arg : Expr) : (call name [arg] mark).eval env =
    (arg.eval env >>= fun a => RunFault.at mark.location (callBuiltin name [a])) := by
  cases evaluated : arg.eval env <;> simp [eval, evalAll, evaluated] <;> rfl

theorem eval_call_two (name : String) (first second : Expr) :
    (call name [first, second] mark).eval env = (first.eval env >>= fun a =>
      second.eval env >>= fun b => RunFault.at mark.location (callBuiltin name [a, b])) := by
  rw [eval]
  cases one : first.eval env <;> cases two : second.eval env <;> simp [evalAll, one, two] <;> rfl

def AllExact (env : Env) (e : Expr) : Prop := ∀ part ∈ e.parts, part.Exact env

theorem allExact_binary : (binary op left right mark).AllExact env ↔
    left.AllExact env ∧ right.AllExact env ∧
      InWord (op.intValue (left.intValue env) (right.intValue env)) ∧
      op.Divides (left.intValue env) (right.intValue env) := by
  rw [AllExact, parts, List.forall_mem_cons, List.forall_mem_append]
  exact and_comm.trans and_assoc

theorem allExact_neg : (unary .neg e mark).AllExact env ↔
    e.AllExact env ∧ InWord (-e.intValue env) := by
  rw [AllExact, parts, List.forall_mem_cons]
  exact and_comm.trans (and_congr_right fun _ => and_iff_left trivial)

theorem allExact_call_one (name : String) : (call name [e] mark).AllExact env ↔
    e.AllExact env ∧ InWord (builtinIntValue name [e.intValue env]) := by
  rw [AllExact, parts, List.forall_mem_cons, allParts, allParts, List.append_nil]
  exact and_comm.trans (and_congr_right fun _ => and_iff_left trivial)

theorem allExact_call_two (name : String) : (call name [left, right] mark).AllExact env ↔
    left.AllExact env ∧ right.AllExact env ∧
      InWord (builtinIntValue name [left.intValue env, right.intValue env]) := by
  rw [AllExact, parts, List.forall_mem_cons, allParts, allParts, allParts, List.append_nil,
    List.forall_mem_append]
  exact and_comm.trans (and_assoc.trans (and_congr_right fun _ => and_congr_right fun _ =>
    and_iff_left trivial))

theorem exact_leaf {n : Int64} (alone : e.parts = [e]) (value : e.intValue env = n.toInt)
    (lossless : e.Exact env ↔ InWord (e.intValue env)) (evaluated : e.eval env = .ok (.int n)) :
    ExactWhere Failure.Arithmetic (e.AllExact env) (e.intValue env) (e.eval env) := by
  rw [evaluated]
  refine (ExactWhere.word value.symm).congr ?_
  rw [AllExact, alone, List.forall_mem_singleton]
  exact lossless

theorem exact_call_two {name : String}
    (onWords : ∀ a b : Int64, ExactWhere (fun fault => fault.isArithmetic = true)
      (InWord (builtinIntValue name [a.toInt, b.toInt])) (builtinIntValue name [a.toInt, b.toInt])
      (callBuiltin name [.int a, .int b]))
    (first : ExactWhere Failure.Arithmetic (left.AllExact env) (left.intValue env) (left.eval env))
    (second : ExactWhere Failure.Arithmetic (right.AllExact env) (right.intValue env)
      (right.eval env)) :
    ExactWhere Failure.Arithmetic ((call name [left, right] mark).AllExact env)
      ((call name [left, right] mark).intValue env) ((call name [left, right] mark).eval env) := by
  rw [eval_call_two]
  refine (first.bind fun a same => second.bind fun b same' => ?_).congr (allExact_call_two name)
  rw [intValue, intValues, intValues, intValues, ← same, ← same']
  exact (onWords a b).located _

theorem Integral.exact (integral : e.Integral env) :
    ExactWhere Failure.Arithmetic (e.AllExact env) (e.intValue env) (e.eval env) := by
  induction integral with
  | literal n mark => exact exact_leaf rfl rfl (and_iff_left trivial) rfl
  | @reference name n mark bound =>
      have value : (Expr.reference name mark).intValue env = n.toInt := by rw [intValue, bound]
      have evaluated : (Expr.reference name mark).eval env = .ok (.int n) := by rw [eval, bound]
      exact exact_leaf rfl value (and_iff_left trivial) evaluated
  | neg mark _ inside =>
      refine (inside.bind fun z same => ?_).congr allExact_neg
      rw [intValue, ← same]
      exact (UnaryOp.neg_exact z).located _
  | @binary op left right mark arithmetic _ _ first second =>
      rw [eval_arithmetic arithmetic]
      refine (first.bind fun a same => second.bind fun b same' => ?_).congr allExact_binary
      rw [BinaryOp.apply_ints arithmetic, intValue, ← same, ← same']
      exact (BinaryOp.onInts_exact arithmetic a b).located _
  | abs mark _ inside =>
      rw [eval_call_one]
      refine (inside.bind fun z same => ?_).congr (allExact_call_one "abs")
      rw [intValue, intValues, intValues, ← same]
      exact (abs_exact z).located _
  | max mark _ _ first second => exact exact_call_two max_exact first second
  | min mark _ _ first second => exact exact_call_two min_exact first second

/-- Arithmetic on integers never wraps: an expression has a value just where every part of it has an
exact one that fits in a word, no divisor is 0 and no quotient of a remainder goes beyond a word,
and then it has the exact value. Everywhere else it fails at runtime. -/
theorem Integral.eval_exact (integral : e.Integral env) :
    (∀ z : Int64, e.eval env = .ok (.int z) ↔
      (∀ part ∈ e.parts, part.Exact env) ∧ z.toInt = e.intValue env) ∧
    (¬(∀ part ∈ e.parts, part.Exact env) → ∃ failure, e.eval env = .error failure ∧
      failure.Arithmetic ∧ failure.diagnostic.kind = .runtime) := by
  have exact := integral.exact
  constructor
  · intro z
    constructor
    · intro evaluated
      by_cases holds : e.AllExact env
      · obtain ⟨z', same, found⟩ := exact.value holds
        cases evaluated.symm.trans found
        exact ⟨holds, same⟩
      · obtain ⟨failure, _, failed⟩ := exact.failure holds
        cases evaluated.symm.trans failed
    · rintro ⟨holds, same⟩
      obtain ⟨z', same', found⟩ := exact.value holds
      rw [found, Int64.toInt_inj.mp (same.trans same'.symm)]
  · intro beyond
    obtain ⟨failure, ⟨fault, named, arithmetic⟩, failed⟩ := exact.failure beyond
    refine ⟨failure, failed, ⟨fault, named, arithmetic⟩, ?_⟩
    rw [Failure.diagnostic, named]
    rfl

/-- The largest integer as the opposite of a sum, and the remainder of the smallest by -1: its value
is 0, which is not what evaluation gives. -/
theorem Integral.eval_exact_ends :
    let env : Env := [[("n", .int Int64.minValue), ("m", .int (-1))]]
    let opposite : Expr :=
      .unary .neg (.binary .add (.reference "n" {}) (.literal (.int 1) {}) {}) {}
    let remainder : Expr := .binary .rem (.reference "n" {}) (.reference "m" {}) {}
    opposite.eval env = .ok (.int Int64.maxValue) ∧
      remainder.intValue env = 0 ∧ ∃ failure, remainder.eval env = .error failure ∧
        failure.Arithmetic ∧ failure.diagnostic.kind = .runtime := by
  intro env opposite remainder
  have inOpposite : opposite.Integral env :=
    .neg {} (.binary {} rfl (.reference {} rfl) (.literal 1 {}))
  have inRemainder : remainder.Integral env :=
    .binary {} rfl (.reference {} rfl) (.reference {} rfl)
  refine ⟨(inOpposite.eval_exact.1 Int64.maxValue).mpr ⟨?_, rfl⟩, rfl,
    inRemainder.eval_exact.2 fun fits => ?_⟩
  · simp [opposite, parts, Exact, InWord, BinaryOp.Divides, intValue, BinaryOp.intValue, env,
      Env.get?]
  · exact (fits remainder List.mem_cons_self).2.2 ⟨rfl, rfl, rfl⟩

end Expr

end Resumable
