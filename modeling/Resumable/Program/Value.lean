import Resumable.Number.Shortest
import Resumable.Program.DataType

/-! Runtime values, which are also the literals of program text. -/

namespace Resumable

/-- `Int` and `Long` share one kind of value. -/
inductive Value where
  | unit
  | bool (value : Bool)
  | int (value : Int64)
  | double (value : Double)
  | char (value : Char)
  | str (value : String)
  deriving DecidableEq, Inhabited

namespace Value

def typeName : Value → String
  | unit => "Unit"
  | bool _ => "Bool"
  | int _ => "Int"
  | double _ => "Double"
  | char _ => "Char"
  | str _ => "String"

def type : Value → DataType
  | unit => .unit
  | bool _ => .bool
  | int _ => .int
  | double _ => .double
  | char _ => .char
  | str _ => .string

/-- Host types admit every value. -/
def hasType : Value → DataType → Bool
  | _, .ref _ => true
  | unit, .unit => true
  | bool _, .bool => true
  | int _, .int => true
  | int _, .long => true
  | double _, .double => true
  | char _, .char => true
  | str _, .string => true
  | _, _ => false

/-- The equality a program sees: doubles compare as numbers, and values of two kinds differ. -/
def equal : Value → Value → Bool
  | double a, double b => a.equal b
  | a, b => a = b

def text : Value → String
  | unit => "()"
  | bool value => if value then "true" else "false"
  | int value => toString value.toInt
  | double value => value.render Double.valueLayout
  | char value => String.singleton value
  | str value => value

end Value
end Resumable
