import Resumable.Number.Shortest
import Resumable.Text.Quoted

/-! JSON values. -/

namespace Resumable

/-- Integers that fit a signed or an unsigned word are kept apart from other numbers. An object
keeps its fields in order, repeated ones too. -/
inductive Json where
  | null
  | bool (value : Bool)
  | int (value : Int)
  | float (value : Double)
  | str (value : String)
  | arr (items : List Json)
  | obj (fields : List (String × Json))

namespace Json

mutual

def depth : Json → Nat
  | arr items => depthOfAll items + 1
  | obj fields => depthOfFields fields + 1
  | _ => 0

def depthOfAll : List Json → Nat
  | [] => 0
  | item :: rest => max item.depth (depthOfAll rest)

def depthOfFields : List (String × Json) → Nat
  | [] => 0
  | (_, value) :: rest => max value.depth (depthOfFields rest)

end

/-- How a record's field may be left out: never, in an object only, or at the end of a list as well.
-/
inductive Presence where
  | required
  | nullable
  | defaulted
  deriving DecidableEq

def fieldOf (fields : List (String × Json)) (key : String) (presence : Presence) :
    Option (Option Json) :=
  match fields.filter (·.1 = key) with
  | [] => if presence = .required then none else some none
  | [(_, value)] => some (some value)
  | _ => none

def fieldsInOrder : List Json → List (String × Presence) → Option (List (Option Json))
  | [], [] => some []
  | _ :: _, [] => none
  | [], (_, presence) :: shape =>
    if presence = .defaulted then (fieldsInOrder [] shape).map (none :: ·) else none
  | item :: rest, _ :: shape => (fieldsInOrder rest shape).map (some item :: ·)

/-- The fields of a record in the order of its shape. An object may hold unknown fields, but a known
one only once; a list holds the fields in order. -/
def record? (shape : List (String × Presence)) : Json → Option (List (Option Json))
  | obj fields => shape.mapM fun (key, presence) => fieldOf fields key presence
  | arr items => fieldsInOrder items shape
  | _ => none

/-- A variant is its bare name, or an object of one field that is its name and payload. -/
def variant? : Json → Option (String × Option Json)
  | str name => some (name, none)
  | obj [(name, payload)] => some (name, some payload)
  | _ => none

def isBare : Option Json → Bool
  | none => true
  | some null => true
  | _ => false

def str? : Json → Option String
  | str value => some value
  | _ => none

def bool? : Json → Option Bool
  | bool value => some value
  | _ => none

def intIn? (least most : Int) : Json → Option Int
  | int value => if least ≤ value && value ≤ most then some value else none
  | _ => none

def arr? : Json → Option (List Json)
  | arr items => some items
  | _ => none

end Json
end Resumable
