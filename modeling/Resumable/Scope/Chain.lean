import Resumable.Ids

/-! Lexical scopes of one body, each of which points outward to the scope around it. -/

namespace Resumable

/-- The names declared directly inside a scope, in declaration order. -/
structure Scope where
  outer : Option ScopeId
  declared : List (String × VarId) := []

structure ScopeChain where
  scopes : Array Scope

namespace ScopeChain

/-- Parameters are declared in the root scope. -/
def root : ScopeId := 0

def initial : ScopeChain := ⟨#[{ outer := none }]⟩

def size (chain : ScopeChain) : Nat := chain.scopes.size

def scope? (chain : ScopeChain) (scope : ScopeId) : Option Scope := chain.scopes[scope]?

def outer? (chain : ScopeChain) (scope : ScopeId) : Option ScopeId :=
  (chain.scope? scope).bind Scope.outer

/-- The new scope is the last one; nothing is asked of the scope around it. -/
def openScope (chain : ScopeChain) (outer : ScopeId) : ScopeChain :=
  ⟨chain.scopes.push { outer := some outer }⟩

def declaredHere? (chain : ScopeChain) (scope : ScopeId) (name : String) : Option VarId :=
  (chain.scope? scope).bind fun entry => entry.declared.lookup name

def bind? (chain : ScopeChain) (scope : ScopeId) (name : String) (var : VarId) :
    Option ScopeChain :=
  (chain.scope? scope).map fun entry =>
    ⟨chain.scopes.setIfInBounds scope { entry with declared := entry.declared ++ [(name, var)] }⟩

def walk (chain : ScopeChain) : Nat → ScopeId → List ScopeId
  | 0, _ => []
  | steps + 1, scope =>
    scope :: match chain.outer? scope with
      | none => []
      | some outer => chain.walk steps outer

/-- The scope and all scopes around it, innermost first. A walk that meets no scope twice takes at
most one step for each scope there is and one more. -/
def outward (chain : ScopeChain) (scope : ScopeId) : List ScopeId :=
  chain.walk (chain.size + 1) scope

def resolve? (chain : ScopeChain) (scope : ScopeId) (name : String) : Option VarId :=
  (chain.outward scope).findSome? fun outer => chain.declaredHere? outer name

def declaredIn (chain : ScopeChain) (scope : ScopeId) : List VarId :=
  match chain.scope? scope with
  | none => []
  | some entry => entry.declared.map Prod.snd

/-- Every variable declared in the scope or around it, shadowed ones included, innermost first. -/
def visible (chain : ScopeChain) (scope : ScopeId) : List VarId :=
  (chain.outward scope).flatMap chain.declaredIn

def isWithin (chain : ScopeChain) (inner outer : ScopeId) : Bool :=
  (chain.outward inner).contains outer

end ScopeChain
end Resumable
