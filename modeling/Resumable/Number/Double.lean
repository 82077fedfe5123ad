/-! Doubles as bits: exact order, rounding of rationals, and the arithmetic of the language. -/

namespace Resumable

/-- A binary64 number, kept as its 64 bits so that every NaN payload survives. -/
structure Double where
  bits : UInt64 := 0
  deriving DecidableEq, Inhabited

namespace Double

def signBit : Nat := Nat.pow 2 63

/-- The magnitude of infinity; a larger magnitude is a NaN. -/
def infinity : Nat := 0x7ff0000000000000

def magnitude (d : Double) : Nat := d.bits.toNat % signBit

def negative (d : Double) : Bool := signBit ≤ d.bits.toNat

def isNaN (d : Double) : Bool := infinity < d.magnitude

def isFinite (d : Double) : Bool := d.magnitude < infinity

def isZero (d : Double) : Bool := d.magnitude == 0

def ofMagnitude (negative : Bool) (magnitude : Nat) : Double :=
  ⟨UInt64.ofNat (if negative then signBit + magnitude else magnitude)⟩

def nan : Double := ofMagnitude false 0x7ff8000000000000

/-- The value of a magnitude in units of `2 ^ -1074`. Infinity counts as the next step of the grid.
-/
def scaled (magnitude : Nat) : Nat :=
  let exponent := magnitude / Nat.pow 2 52
  let fraction := magnitude % Nat.pow 2 52
  if exponent = 0 then fraction else (Nat.pow 2 52 + fraction) * Nat.pow 2 (exponent - 1)

/-- The integer nearest to `numerator / denominator`; a tie goes to the even one. -/
def roundQuotient (numerator denominator : Nat) : Nat :=
  let below := numerator / denominator
  let twice := 2 * (numerator % denominator)
  if twice < denominator then below
  else if denominator < twice then below + 1
  else below + below % 2

/-- The binary places that doubles near `numerator / denominator` have: as many as leave 53 digits
with those ahead of the point, but no more than 1074. There are fewer than none if the step between
two doubles is greater than one. -/
def binaryPlaces (numerator denominator : Nat) : Int :=
  let places : Int := 53 + denominator.log2 - numerator.log2
  if denominator * Nat.pow 2 53 * Nat.pow 2 (-places).toNat ≤
      numerator * Nat.pow 2 places.toNat then
    Min.min 1074 (places - 1)
  else Min.min 1074 places

/-- The magnitude nearest to `numerator / denominator`; a tie goes to the even one. Magnitudes count
the doubles from zero on, and each place less skips `2 ^ 52` of them. -/
def nearest (numerator denominator : Nat) : Nat :=
  if numerator = 0 then 0
  else
    let places := binaryPlaces numerator denominator
    let steps := roundQuotient (numerator * Nat.pow 2 places.toNat)
      (denominator * Nat.pow 2 (-places).toNat)
    Min.min infinity ((1074 - places).toNat * Nat.pow 2 52 + steps)

def decimalLength (n : Nat) : Nat := (Nat.toDigits 10 n).length

/-- Reads `digits * 10 ^ exponent`. Exponents beyond the range of doubles are settled first. -/
def ofDecimal (negative : Bool) (digits : Nat) (exponent : Int) : Double :=
  if digits = 0 then ofMagnitude negative 0
  else if 400 < exponent then ofMagnitude negative infinity
  else if exponent + decimalLength digits < -400 then ofMagnitude negative 0
  else
    ofMagnitude negative
      (nearest (digits * Nat.pow 10 exponent.toNat) (Nat.pow 10 (-exponent).toNat))

def product (a b : Nat) : Nat := nearest (scaled a * scaled b) (Nat.pow 2 2148)

def quotient (a b : Nat) : Nat := nearest (scaled a) (scaled b)

def powerOfTen (n : Nat) : Nat := nearest (Nat.pow 10 n) 1

/-- Scales a word of digits by a power of ten in double arithmetic: the word, the power and the
result are rounded one after the other, so the outcome may be off by a few places of the last bit.
A power of more than 308 places divides in two steps. A number beyond all doubles is `none`. -/
def scaleWord? (negative : Bool) (digits : UInt64) (exponent : Int) : Option Double :=
  let whole := nearest digits.toNat 1
  let places := exponent.natAbs
  if whole = 0 then some (ofMagnitude negative 0)
  else if 0 ≤ exponent then
    if 308 < places then none
    else
      let value := ofMagnitude negative (product whole (powerOfTen places))
      if value.isFinite then some value else none
  else if places ≤ 308 then some (ofMagnitude negative (quotient whole (powerOfTen places)))
  else if places ≤ 616 then
    let part := quotient whole (powerOfTen 308)
    some (ofMagnitude negative (quotient part (powerOfTen (places - 308))))
  else some (ofMagnitude negative 0)

def ofInt (n : Int) : Double := ofMagnitude (n < 0) (nearest n.natAbs 1)

def neg (d : Double) : Double := ofMagnitude (!d.negative) d.magnitude

def abs (d : Double) : Double := ofMagnitude false d.magnitude

def place (d : Double) : Int := if d.negative then -d.magnitude else d.magnitude

/-- Numeric equality: a NaN equals nothing and both zeros are equal. -/
def equal (a b : Double) : Bool := !a.isNaN && !b.isNaN && a.place == b.place

def compare? (a b : Double) : Option Ordering :=
  if a.isNaN || b.isNaN then none else some (compare a.place b.place)

def toFloat (d : Double) : Float := Float.ofBits d.bits

def ofFloat (x : Float) : Double := ⟨x.toBits⟩

def add (a b : Double) : Double := ofFloat (a.toFloat + b.toFloat)

def sub (a b : Double) : Double := ofFloat (a.toFloat - b.toFloat)

def mul (a b : Double) : Double := ofFloat (a.toFloat * b.toFloat)

def div (a b : Double) : Double := ofFloat (a.toFloat / b.toFloat)

/-- The remainder of division toward zero. It is exact and has the sign of the dividend. -/
def rem (a b : Double) : Double :=
  if !a.isFinite || b.isNaN || b.isZero then nan
  else if !b.isFinite then a
  else ofMagnitude a.negative (nearest (scaled a.magnitude % scaled b.magnitude) (Nat.pow 2 1074))

/-- The greater number; a NaN gives way to the other operand. -/
def max (a b : Double) : Double :=
  if a.isNaN then b else if b.isNaN then a else if a.place < b.place then b else a

def min (a b : Double) : Double :=
  if a.isNaN then b else if b.isNaN then a else if b.place < a.place then b else a

end Double
end Resumable
