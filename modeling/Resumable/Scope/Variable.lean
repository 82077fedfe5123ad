import Resumable.Program.Location
import Resumable.Scope.Chain
import Resumable.Slot.Basic

/-! The variables of one body and the slots they are given. -/

namespace Resumable

/-- The local name is unique in the whole body, however often the name is declared. -/
structure Variable where
  id : VarId
  name : String
  localName : String
  type : DataType
  mutable : Bool
  parameter : Bool
  scope : ScopeId
  slot : Slot
  encoding : Encoding
  location : Location

/-- How many slots are in use on each stack. -/
structure Extent where
  values : Nat := 0
  references : Nat := 0
  deriving DecidableEq

namespace Extent

def on (extent : Extent) : Stack → Nat
  | .value => extent.values
  | .reference => extent.references

def grow (extent : Extent) : Stack → Extent
  | .value => { extent with values := extent.values + 1 }
  | .reference => { extent with references := extent.references + 1 }

def join (a b : Extent) : Extent := ⟨max a.values b.values, max a.references b.references⟩

end Extent

/-- `next` holds the first free slots of the scopes that have begun to use any; of several entries
for one scope the first counts. -/
structure VariableTable where
  vars : Array Variable := #[]
  next : List (ScopeId × Extent) := []
  frame : Extent := {}
  nextUid : Nat := 0

namespace VariableTable

def size (table : VariableTable) : Nat := table.vars.size

def get? (table : VariableTable) (var : VarId) : Option Variable := table.vars[var]?

def isTaken (table : VariableTable) (localName : String) : Bool :=
  table.vars.any fun var => var.localName == localName

def candidate (name : String) (count : Nat) : String :=
  if count = 0 then name else name ++ "$" ++ toString count

/-- The name itself, or the first of its numbered forms that no variable has. There is one among as
many forms as there are variables and one more. -/
def freshName (table : VariableTable) (name : String) : String :=
  let forms := (List.range (table.size + 1)).map (candidate name)
  (forms.find? fun form => !table.isTaken form).getD name

/-- A scope without slots of its own starts where the nearest scope around it stands. -/
def firstFree (table : VariableTable) (chain : ScopeChain) (scope : ScopeId) : Extent :=
  ((chain.outward scope).findSome? fun outer => table.next.lookup outer).getD {}

/-- Fixes where a scope, and every scope around it that has no entry yet, starts. -/
def enter (table : VariableTable) (chain : ScopeChain) (scope : ScopeId) : VariableTable :=
  let fresh := (chain.outward scope).takeWhile fun outer => (table.next.lookup outer).isNone
  { table with next := fresh.map (·, table.firstFree chain scope) ++ table.next }

def allocate (table : VariableTable) (chain : ScopeChain) (scope : ScopeId) (stack : Stack) :
    Slot × VariableTable :=
  let free := table.firstFree chain scope
  let after := free.grow stack
  let entered := table.enter chain scope
  (⟨stack, free.on stack⟩,
    { entered with next := (scope, after) :: entered.next, frame := entered.frame.join after })

def takeUid (table : VariableTable) : Nat × VariableTable :=
  (table.nextUid, { table with nextUid := table.nextUid + 1 })

end VariableTable
end Resumable
