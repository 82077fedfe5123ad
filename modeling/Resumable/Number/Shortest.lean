import Resumable.Number.Double

/-! The shortest decimal that reads back as a given double, and the layouts it is written in. -/

namespace Resumable

/-- The number `digits * 10 ^ exponent`. -/
structure Decimal where
  digits : Nat
  exponent : Int
  deriving DecidableEq

namespace Decimal

def point (d : Decimal) : Int := Double.decimalLength d.digits + d.exponent

end Decimal

/-- The reals that round to one double: its value and both ends as numerators over one denominator.
The ends belong to it if it is `closed`. -/
structure Interval where
  lower : Nat
  value : Nat
  upper : Nat
  denominator : Nat
  closed : Bool

namespace Interval

/-- The interval of a magnitude that isn't zero. The ends lie half a step away, below a power of two
half a step of the finer grid. -/
def ofMagnitude (magnitude : Nat) : Interval :=
  let exponent := magnitude / Nat.pow 2 52
  let fraction := magnitude % Nat.pow 2 52
  let quarters := 4 * (if exponent = 0 then fraction else Nat.pow 2 52 + fraction)
  let below := if fraction = 0 && 1 < exponent then 1 else 2
  let factor := Nat.pow 2 (exponent - 1 - 1076)
  { lower := (quarters - below) * factor
    value := quarters * factor
    upper := (quarters + 2) * factor
    denominator := Nat.pow 2 (1076 - (exponent - 1))
    closed := magnitude % 2 = 0 }

def inUnits (interval : Interval) (power : Int) : Interval :=
  let factor := Nat.pow 10 (-power).toNat
  { interval with
    lower := interval.lower * factor
    value := interval.value * factor
    upper := interval.upper * factor
    denominator := interval.denominator * Nat.pow 10 power.toNat }

def contains (interval : Interval) (n : Nat) : Bool :=
  let point := n * interval.denominator
  if interval.closed then interval.lower ≤ point && point ≤ interval.upper
  else interval.lower < point && point < interval.upper

/-- The exponent of the leading decimal digit of the value. The binary logarithm leaves two
exponents to choose from. -/
def leading (interval : Interval) : Int :=
  let binary : Int := interval.value.log2 - interval.denominator.log2 - 1
  let guess := binary * 30103 / 100000
  let units := interval.inUnits (guess + 1)
  if units.denominator ≤ units.value then guess + 1 else guess

end Interval

namespace Decimal

/-- Where two decimals are equally near, the upper one or the even one is written. -/
inductive Tie where
  | up
  | even
  deriving DecidableEq

/-- The point of a grid of `count` digits that reads back, the nearer one where both neighbours
do. -/
def onGrid (tie : Tie) (interval : Interval) (leading : Int) (count : Nat) : Option Decimal :=
  let power := leading + 1 - count
  let units := interval.inUnits power
  let below := units.value / units.denominator
  let toDecimal (digits : Nat) : Decimal :=
    if digits = Nat.pow 10 count then ⟨1, power + count⟩ else ⟨digits, power⟩
  let middle := (2 * below + 1) * units.denominator
  match units.contains below, units.contains (below + 1) with
  | true, true =>
    if 2 * units.value < middle then some (toDecimal below)
    else if middle < 2 * units.value then some (toDecimal (below + 1))
    else if tie = .even && below % 2 = 0 then some (toDecimal below)
    else some (toDecimal (below + 1))
  | true, false => some (toDecimal below)
  | false, true => some (toDecimal (below + 1))
  | false, false => none

def shortest (tie : Tie) (magnitude : Nat) : Decimal :=
  let interval := Interval.ofMagnitude magnitude
  let leading := interval.leading
  ((List.range 17).findSome? fun index => onGrid tie interval leading (index + 1)).getD ⟨0, 0⟩

/-- How a decimal is chosen and laid out: ties, where it is positional, what follows a whole number,
and the sign of an exponent above zero. -/
structure Layout where
  tie : Tie
  positional : Int → Bool
  wholeMark : String
  plus : String

def zeros (count : Nat) : String := String.ofList (List.replicate count '0')

def render (layout : Layout) (d : Decimal) : String :=
  let digits := Nat.toDigits 10 d.digits
  let point := d.point
  if layout.positional point then
    if point ≤ 0 then "0." ++ zeros (-point).toNat ++ String.ofList digits
    else if 0 ≤ d.exponent then String.ofList digits ++ zeros d.exponent.toNat ++ layout.wholeMark
    else String.ofList (digits.take point.toNat) ++ "." ++ String.ofList (digits.drop point.toNat)
  else
    let tail := if digits.length ≤ 1 then "" else "." ++ String.ofList (digits.drop 1)
    String.ofList (digits.take 1) ++ tail ++ "e" ++ (if 1 < point then layout.plus else "") ++
      toString (point - 1)

end Decimal

namespace Double

def render (layout : Decimal.Layout) (d : Double) : String :=
  if d.isNaN then "NaN"
  else
    let sign := if d.negative then "-" else ""
    if !d.isFinite then sign ++ "inf"
    else if d.isZero then sign ++ "0" ++ layout.wholeMark
    else sign ++ (Decimal.shortest layout.tie d.magnitude).render layout

/-- Values are written positionally, however long that is. -/
def valueLayout : Decimal.Layout := ⟨.up, fun _ => true, "", ""⟩

/-- Literals in program text keep a point, and use an exponent below 0.0001 and from 10^16 on. -/
def literalLayout : Decimal.Layout := ⟨.up, fun point => -3 ≤ point && point ≤ 16, ".0", ""⟩

/-- JSON numbers keep a point, and use an exponent below 0.00001 and, with a sign, from 10^16 on. -/
def jsonLayout : Decimal.Layout := ⟨.even, fun point => -5 < point && point ≤ 16, ".0", "+"⟩

end Double
end Resumable
