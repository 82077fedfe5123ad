import Resumable.Diagnostic.Fault

/-! Packing values into 64-bit words and back. -/

namespace Resumable

/-- Only a value of the type that an encoding serves can be packed. -/
def Value.encode : Encoding → Value → Except RunFault Int64
  | .unitWord, .unit => .ok 0
  | .boolWord, .bool value => .ok (if value then 1 else 0)
  | .intWord, .int value => .ok value
  | .longWord, .int value => .ok value
  | .charWord, .char value => .ok (Int64.ofNat value.toNat)
  | .doubleBits, .double value => .ok value.bits.toInt64
  | encoding, value => .error (.unpackable value encoding)

/-- Every word but one outside the range of characters can be read under each word encoding. -/
def Value.decode (encoding : Encoding) (word : Int64) : Except RunFault Value :=
  match encoding with
  | .boolWord => .ok (.bool (word != 0))
  | .intWord | .longWord => .ok (.int word)
  | .doubleBits => .ok (.double ⟨word.toUInt64⟩)
  | .unitWord => .ok .unit
  | .charWord =>
    if 0 ≤ word.toInt && Nat.isValidChar word.toInt.toNat then
      .ok (.char (Char.ofNat word.toInt.toNat))
    else .error (.notACharacter word)
  | .reference => .error .referenceWord

end Resumable
