import Resumable.Diagnostic.Fault
import Resumable.Scope.Variable

/-! Scopes and variables together: opening scopes, declaring and resolving names. -/

namespace Resumable

structure Symbols where
  scopes : ScopeChain := .initial
  «variables» : VariableTable := {}

namespace Symbols

/-- Opens a scope and fixes where it starts to take slots, before its outer scope takes more. -/
def openScope (symbols : Symbols) (outer : ScopeId) : ScopeId × Symbols :=
  let scopes := symbols.scopes.openScope outer
  let scope := symbols.scopes.size
  (scope, ⟨scopes, symbols.variables.enter scopes scope⟩)

def resolve? (symbols : Symbols) (scope : ScopeId) (name : String) : Option Variable :=
  (symbols.scopes.resolve? scope name).bind symbols.variables.get?

def entry (symbols : Symbols) (var : VarId) : Except Failure Variable :=
  match symbols.variables.get? var with
  | some info => .ok info
  | none => .error { fault := .graph (.noVariable var) }

def register (symbols : Symbols) (scope : ScopeId) (name : String) (type : DataType)
    (mutable parameter : Bool) (location : Location) : Variable × VariableTable :=
  let localName := symbols.variables.freshName name
  let (slot, table) := symbols.variables.allocate symbols.scopes scope type.encoding.stack
  let id := table.size
  let var : Variable :=
    { id, name, localName, type, mutable, parameter, scope, slot, location
      encoding := type.encoding }
  (var, { table with vars := table.vars.push var })

/-- Declares a name. A name that the scope already has is refused and changes nothing; a scope that
does not exist is noticed only after the variable has its entry. -/
def declare (symbols : Symbols) (scope : ScopeId) (name : String) (type : DataType)
    (mutable parameter : Bool) (location : Location) : Except Failure Variable × Symbols :=
  match symbols.scopes.declaredHere? scope name with
  | some existing =>
    let clash := (symbols.variables.get? existing).any Variable.parameter
    (.error ⟨.lowering (.redeclared name clash), location⟩, symbols)
  | none =>
    let (var, table) := symbols.register scope name type mutable parameter location
    match symbols.scopes.bind? scope name var.id with
    | some scopes => (.ok var, ⟨scopes, table⟩)
    | none => (.error { fault := .graph (.noScope scope) }, ⟨symbols.scopes, table⟩)

end Symbols
end Resumable
