import Resumable.Program.Value

/-! Environments: the values that names have in nested scopes. -/

namespace Resumable

/-- Scopes stand innermost first, and each has one value for a name. -/
abbrev Env := List (List (String × Value))

namespace Env

def initial : Env := [[]]

def bind (name : String) (value : Value) : List (String × Value) → List (String × Value)
  | [] => [(name, value)]
  | (other, old) :: rest =>
    if other = name then (name, value) :: rest else (other, old) :: bind name value rest

def get? (name : String) : Env → Option Value
  | [] => none
  | scope :: rest => (scope.lookup name).or (get? name rest)

def define (name : String) (value : Value) : Env → Env
  | [] => []
  | scope :: rest => bind name value scope :: rest

def assign? (name : String) (value : Value) : Env → Option Env
  | [] => none
  | scope :: rest =>
    if (scope.lookup name).isSome then some (bind name value scope :: rest)
    else (assign? name value rest).map (scope :: ·)

def push (env : Env) : Env := [] :: env

/-- The outermost scope is never left. -/
def pop : Env → Env
  | _ :: outer :: rest => outer :: rest
  | env => env

def keepOuter (count : Nat) (env : Env) : Env := env.drop (env.length - count)

end Env
end Resumable
