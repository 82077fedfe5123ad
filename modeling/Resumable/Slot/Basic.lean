import Resumable.Program.DataType

/-! Where a local is kept across a suspension, and in which form. -/

namespace Resumable

/-- Packed words and untouched values are kept on stacks of their own. -/
inductive Stack where
  | value
  | reference
  deriving DecidableEq

structure Slot where
  stack : Stack
  index : Nat
  deriving DecidableEq

/-- How a value is packed into its slot. -/
inductive Encoding where
  | reference
  | boolWord
  | intWord
  | longWord
  | charWord
  | doubleBits
  | unitWord
  deriving DecidableEq

namespace Stack

def text : Stack → String
  | value => "Value"
  | reference => "Reference"

/-- Value slots come before reference slots. -/
def rank : Stack → Nat
  | value => 0
  | reference => 1

end Stack

namespace Slot

def before (a b : Slot) : Bool :=
  a.stack.rank < b.stack.rank || (a.stack = b.stack && a.index < b.index)

end Slot

namespace Encoding

def text : Encoding → String
  | reference => "Reference"
  | boolWord => "BoolWord"
  | intWord => "IntWord"
  | longWord => "LongWord"
  | charWord => "CharWord"
  | doubleBits => "DoubleBits"
  | unitWord => "UnitWord"

def stack : Encoding → Stack
  | reference => .reference
  | _ => .value

def all : List Encoding :=
  [reference, boolWord, intWord, longWord, charWord, doubleBits, unitWord]

end Encoding

def DataType.encoding : DataType → Encoding
  | unit => .unitWord
  | bool => .boolWord
  | int => .intWord
  | long => .longWord
  | char => .charWord
  | double => .doubleBits
  | string => .reference
  | ref _ => .reference

end Resumable
