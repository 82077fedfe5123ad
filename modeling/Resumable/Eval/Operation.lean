import Resumable.Diagnostic.Fault

/-! Operators and builtins on values. -/

namespace Resumable

def checkedWord? (n : Int) : Option Int64 :=
  if Int64.minValue.toInt ≤ n && n ≤ Int64.maxValue.toInt then some (Int64.ofInt n) else none

def exactOr (fault : RunFault) (n : Int) : Except RunFault Value :=
  match checkedWord? n with
  | some word => .ok (.int word)
  | none => .error fault

namespace UnaryOp

def apply : UnaryOp → Value → Except RunFault Value
  | neg, .int n => exactOr .overflow (-n.toInt)
  | neg, .double x => .ok (.double x.neg)
  | not, .bool b => .ok (.bool !b)
  | op, operand => .error (.unaryOperand op operand)

end UnaryOp

namespace BinaryOp

/-- Division and remainder go toward zero. The smallest integer has no remainder by -1, since its
quotient fits in no word. -/
def onInts (op : BinaryOp) (a b : Int64) : Except RunFault Value :=
  let exact := exactOr (.overflowIn op)
  match op with
  | add => exact (a.toInt + b.toInt)
  | sub => exact (a.toInt - b.toInt)
  | mul => exact (a.toInt * b.toInt)
  | div => if b = 0 then .error .divisionByZero else exact (a.toInt.tdiv b.toInt)
  | rem =>
    if b = 0 then .error .divisionByZero
    else if a = Int64.minValue && b = -1 then .error (.overflowIn op)
    else exact (a.toInt.tmod b.toInt)
  | _ => .error (.binaryOperands op (.int a) (.int b))

def onDoubles (op : BinaryOp) (a b : Double) : Except RunFault Value :=
  match op with
  | add => .ok (.double (a.add b))
  | sub => .ok (.double (a.sub b))
  | mul => .ok (.double (a.mul b))
  | div => .ok (.double (a.div b))
  | rem => .ok (.double (a.rem b))
  | _ => .error (.binaryOperands op (.double a) (.double b))

/-- The order of two values of one kind; a NaN has no place in it. -/
def order (a b : Value) : Except RunFault (Option Ordering) :=
  match a, b with
  | .int a, .int b => .ok (some (compare a.toInt b.toInt))
  | .double a, .double b => .ok (a.compare? b)
  | .char a, .char b => .ok (some (compare a.toNat b.toNat))
  | .str a, .str b => .ok (some (compare a b))
  | a, b => .error (.incomparable a b)

def holds : BinaryOp → Ordering → Bool
  | lt, ordering => ordering.isLT
  | ltEq, ordering => ordering.isLE
  | gt, ordering => ordering.isGT
  | gtEq, ordering => ordering.isGE
  | _, _ => false

def isComparison : BinaryOp → Bool
  | lt | ltEq | gt | gtEq => true
  | _ => false

def compareValues (op : BinaryOp) (a b : Value) : Except RunFault Value :=
  (order a b).map fun ordering => .bool (ordering.any op.holds)

def onNumbers (op : BinaryOp) (a b : Value) : Except RunFault Value :=
  if op.isComparison then compareValues op a b
  else match a, b with
    | .int a, .int b => onInts op a b
    | .double a, .double b => onDoubles op a b
    | a, b => .error (.binaryOperands op a b)

/-- Adding to a string on either side joins texts. -/
def apply (op : BinaryOp) (a b : Value) : Except RunFault Value :=
  match op, a, b with
  | eq, a, b => .ok (.bool (a.equal b))
  | notEq, a, b => .ok (.bool !a.equal b)
  | add, .str a, b => .ok (.str (a ++ b.text))
  | add, a, .str b => .ok (.str (a.text ++ b))
  | op, .int a, .double b => onNumbers op (.double (.ofInt a.toInt)) (.double b)
  | op, .double a, .int b => onNumbers op (.double a) (.double (.ofInt b.toInt))
  | op, a, b => onNumbers op a b

end BinaryOp

def callBuiltin (name : String) (args : List Value) : Except RunFault Value :=
  match name, args with
  | "abs", [.int n] => exactOr .overflowInAbs n.toInt.natAbs
  | "abs", [.double x] => .ok (.double x.abs)
  | "max", [.int a, .int b] => .ok (.int (if a ≤ b then b else a))
  | "min", [.int a, .int b] => .ok (.int (if a ≤ b then a else b))
  | "max", [.double a, .double b] => .ok (.double (a.max b))
  | "min", [.double a, .double b] => .ok (.double (a.min b))
  | "str_len", [.str s] => .ok (.int (Int64.ofNat s.length))
  | "to_string", [value] => .ok (.str value.text)
  | name, args => .error (.noBuiltin name args)

end Resumable
