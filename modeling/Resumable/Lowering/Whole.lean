import Resumable.Lowering.Draft

/-! Resolving the names of constructs that stay in one piece. Their inner scopes get variables and
slots like any other, but no types are checked inside. -/

namespace Resumable

mutual

def Stmt.resolveWhole (scope : ScopeId) (reads : List VarId) : Stmt → Lower (Stmt × List VarId)
  | .declare name type mutable value location => do
    value.requirePlain
    let (value, reads) ← Lower.resolve scope value reads
    let var ← Lower.declare scope name type mutable false location
    return (.declare var.localName type mutable value location, reads)
  | .assign target value location => do
    value.requirePlain
    let (target, reads) ← Lower.resolveTarget scope target location reads
    let (value, reads) ← Lower.resolve scope value reads
    return (.assign target value location, reads)
  | .evaluate value location => do
    value.requirePlain
    let (value, reads) ← Lower.resolve scope value reads
    return (.evaluate value location, reads)
  | .branch condition thenBranch none location => do
    condition.requirePlain
    let (condition, reads) ← Lower.resolve scope condition reads
    let thenScope ← Lower.openScope scope
    let (thenBranch, reads) ← thenBranch.resolveWhole thenScope reads
    return (.branch condition thenBranch none location, reads)
  | .branch condition thenBranch (some elseBranch) location => do
    condition.requirePlain
    let (condition, reads) ← Lower.resolve scope condition reads
    let thenScope ← Lower.openScope scope
    let (thenBranch, reads) ← thenBranch.resolveWhole thenScope reads
    let elseScope ← Lower.openScope scope
    let (elseBranch, reads) ← elseBranch.resolveWhole elseScope reads
    return (.branch condition thenBranch (some elseBranch) location, reads)
  | .block body location => do
    let blockScope ← Lower.openScope scope
    let (body, reads) ← Stmt.resolveAll blockScope reads body
    return (.block body location, reads)
  | .loop condition body location => do
    condition.requirePlain
    let (condition, reads) ← Lower.resolve scope condition reads
    let bodyScope ← Lower.openScope scope
    let (body, reads) ← body.resolveWhole bodyScope reads
    return (.loop condition body location, reads)
  | .select scrutinee arms location => do
    scrutinee.requirePlain
    let (scrutinee, reads) ← Lower.resolve scope scrutinee reads
    let (arms, reads) ← Arm.resolveAll scope reads arms
    return (.select scrutinee arms location, reads)
  | .attempt body handler location => do
    let bodyScope ← Lower.openScope scope
    let (body, reads) ← body.resolveWhole bodyScope reads
    let handlerScope ← Lower.openScope scope
    let (handler, reads) ← handler.resolveWhole handlerScope reads
    return (.attempt body handler location, reads)

def Stmt.resolveAll (scope : ScopeId) (reads : List VarId) :
    List Stmt → Lower (List Stmt × List VarId)
  | [] => return ([], reads)
  | s :: rest => do
    let (s, reads) ← s.resolveWhole scope reads
    let (rest, reads) ← Stmt.resolveAll scope reads rest
    return (s :: rest, reads)

/-- A pattern is resolved around its arm, and each arm has a scope of its own. -/
def Arm.resolveAll (scope : ScopeId) (reads : List VarId) :
    List Arm → Lower (List Arm × List VarId)
  | [] => return ([], reads)
  | .mk none body :: rest => do
    let armScope ← Lower.openScope scope
    let (body, reads) ← body.resolveWhole armScope reads
    let (rest, reads) ← Arm.resolveAll scope reads rest
    return (.mk none body :: rest, reads)
  | .mk (some pattern) body :: rest => do
    pattern.requirePlain
    let (pattern, reads) ← Lower.resolve scope pattern reads
    let armScope ← Lower.openScope scope
    let (body, reads) ← body.resolveWhole armScope reads
    let (rest, reads) ← Arm.resolveAll scope reads rest
    return (.mk (some pattern) body :: rest, reads)

end

end Resumable
