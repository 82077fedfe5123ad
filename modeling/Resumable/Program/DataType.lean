/-! Types that a front end attaches to locals and expressions. -/

namespace Resumable

/-- Primitive types are packed into words; `ref` names a host type, which is kept as it is. -/
inductive DataType where
  | unit
  | bool
  | int
  | long
  | char
  | double
  | string
  | ref (name : String)
  deriving DecidableEq, Inhabited

namespace DataType

def text : DataType → String
  | unit => "Unit"
  | bool => "Bool"
  | int => "Int"
  | long => "Long"
  | char => "Char"
  | double => "Double"
  | string => "String"
  | ref name => name

/-- Both integer types have the same values, so each stands for the other. -/
def accepts (declared found : DataType) : Bool :=
  declared = found || (declared = long && found = int) || (declared = int && found = long)

end DataType
end Resumable
