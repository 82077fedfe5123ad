import Resumable.Program.Tree

/-! The names in a tree: those it refers to, those it assigns to and those it declares. -/

namespace Resumable

mutual

/-- Every name that evaluating the expression may look up. -/
def Expr.references : Expr → List String
  | .literal .. => []
  | .reference name _ => [name]
  | .binary _ left right _ => left.references ++ right.references
  | .unary _ operand _ => operand.references
  | .call _ args _ => Expr.allReferences args
  | .suspend payload _ => payload.references
  | .function .. => []

def Expr.allReferences : List Expr → List String
  | [] => []
  | e :: rest => e.references ++ Expr.allReferences rest

end

def Stmt.declared? : Stmt → Option String
  | .declare name .. => some name
  | _ => none

mutual

/-- The names of all declarations in a statement, at any depth. -/
def Stmt.bound : Stmt → List String
  | .declare name .. => [name]
  | .assign .. => []
  | .evaluate .. => []
  | .branch _ thenBranch none _ => thenBranch.bound
  | .branch _ thenBranch (some elseBranch) _ => thenBranch.bound ++ elseBranch.bound
  | .block body _ => Stmt.boundAll body
  | .loop _ body _ => body.bound
  | .select _ arms _ => Arm.boundAll arms
  | .attempt body handler _ => body.bound ++ handler.bound

def Stmt.boundAll : List Stmt → List String
  | [] => []
  | s :: rest => s.bound ++ Stmt.boundAll rest

def Arm.boundAll : List Arm → List String
  | [] => []
  | .mk _ body :: rest => body.bound ++ Arm.boundAll rest

end

mutual

def Stmt.declarations : Stmt → List (String × DataType)
  | .declare name type .. => [(name, type)]
  | .assign .. => []
  | .evaluate .. => []
  | .branch _ thenBranch none _ => thenBranch.declarations
  | .branch _ thenBranch (some elseBranch) _ =>
    thenBranch.declarations ++ elseBranch.declarations
  | .block body _ => Stmt.allDeclarations body
  | .loop _ body _ => body.declarations
  | .select _ arms _ => Arm.allDeclarations arms
  | .attempt body handler _ => body.declarations ++ handler.declarations

def Stmt.allDeclarations : List Stmt → List (String × DataType)
  | [] => []
  | s :: rest => s.declarations ++ Stmt.allDeclarations rest

def Arm.allDeclarations : List Arm → List (String × DataType)
  | [] => []
  | .mk _ body :: rest => body.declarations ++ Arm.allDeclarations rest

end

mutual

theorem Stmt.bound_eq (s : Stmt) : s.bound = s.declarations.map Prod.fst := by
  match s with
  | .declare .. | .assign .. | .evaluate .. => rfl
  | .branch _ thenBranch none _ => exact thenBranch.bound_eq
  | .branch _ thenBranch (some elseBranch) _ =>
      rw [Stmt.bound, Stmt.declarations, List.map_append, thenBranch.bound_eq, elseBranch.bound_eq]
  | .block body _ => exact Stmt.boundAll_eq body
  | .loop _ body _ => exact body.bound_eq
  | .select _ arms _ => exact Arm.boundAll_eq arms
  | .attempt body handler _ =>
      rw [Stmt.bound, Stmt.declarations, List.map_append, body.bound_eq, handler.bound_eq]

theorem Stmt.boundAll_eq (body : List Stmt) :
    Stmt.boundAll body = (Stmt.allDeclarations body).map Prod.fst := by
  match body with
  | [] => rfl
  | s :: rest =>
      rw [Stmt.boundAll, Stmt.allDeclarations, List.map_append, s.bound_eq, Stmt.boundAll_eq rest]

theorem Arm.boundAll_eq (arms : List Arm) :
    Arm.boundAll arms = (Arm.allDeclarations arms).map Prod.fst := by
  match arms with
  | [] => rfl
  | .mk _ body :: rest =>
      rw [Arm.boundAll, Arm.allDeclarations, List.map_append, body.bound_eq, Arm.boundAll_eq rest]

end

mutual

def Stmt.targets : Stmt → List String
  | .declare .. => []
  | .assign target _ _ => [target]
  | .evaluate .. => []
  | .branch _ thenBranch none _ => thenBranch.targets
  | .branch _ thenBranch (some elseBranch) _ => thenBranch.targets ++ elseBranch.targets
  | .block body _ => Stmt.targetsAll body
  | .loop _ body _ => body.targets
  | .select _ arms _ => Arm.targetsAll arms
  | .attempt body handler _ => body.targets ++ handler.targets

def Stmt.targetsAll : List Stmt → List String
  | [] => []
  | s :: rest => s.targets ++ Stmt.targetsAll rest

def Arm.targetsAll : List Arm → List String
  | [] => []
  | .mk _ body :: rest => body.targets ++ Arm.targetsAll rest

end

mutual

/-- The names a statement refers or assigns to without declaring them before. -/
def Stmt.free : Stmt → List String
  | .declare _ _ _ value _ => value.references
  | .assign target value _ => target :: value.references
  | .evaluate value _ => value.references
  | .branch condition thenBranch none _ => condition.references ++ thenBranch.free
  | .branch condition thenBranch (some elseBranch) _ =>
    condition.references ++ (thenBranch.free ++ elseBranch.free)
  | .block body _ => Stmt.freeAll body
  | .loop condition body _ => condition.references ++ body.free
  | .select scrutinee arms _ => scrutinee.references ++ Arm.freeAll arms
  | .attempt body handler _ => body.free ++ handler.free

def Stmt.freeAll : List Stmt → List String
  | [] => []
  | s :: rest => s.free ++ (Stmt.freeAll rest).filter fun name => s.declared? ≠ some name

def Arm.freeAll : List Arm → List String
  | [] => []
  | .mk none body :: rest => body.free ++ Arm.freeAll rest
  | .mk (some pattern) body :: rest => pattern.references ++ (body.free ++ Arm.freeAll rest)

end

mutual

def Stmt.names : Stmt → List String
  | .declare name _ _ value _ => name :: value.references
  | .assign target value _ => target :: value.references
  | .evaluate value _ => value.references
  | .branch condition thenBranch none _ => condition.references ++ thenBranch.names
  | .branch condition thenBranch (some elseBranch) _ =>
    condition.references ++ (thenBranch.names ++ elseBranch.names)
  | .block body _ => Stmt.allNames body
  | .loop condition body _ => condition.references ++ body.names
  | .select scrutinee arms _ => scrutinee.references ++ Arm.allNames arms
  | .attempt body handler _ => body.names ++ handler.names

def Stmt.allNames : List Stmt → List String
  | [] => []
  | s :: rest => s.names ++ Stmt.allNames rest

def Arm.allNames : List Arm → List String
  | [] => []
  | .mk none body :: rest => body.names ++ Arm.allNames rest
  | .mk (some pattern) body :: rest => pattern.references ++ (body.names ++ Arm.allNames rest)

end

theorem Stmt.mem_bound_of_declared? {s : Stmt} {name : String} (declares : s.declared? = some name) :
    name ∈ s.bound := by
  cases s with
  | declare found _ _ _ _ =>
      have same : found = name := by simpa [Stmt.declared?] using declares
      simp [Stmt.bound, same]
  | _ => simp [Stmt.declared?] at declares

mutual

theorem Stmt.mem_names (s : Stmt) (name : String) :
    name ∈ s.names ↔ name ∈ s.free ∨ name ∈ s.bound := by
  match s with
  | .declare other _ _ value _ =>
      simp only [Stmt.names, Stmt.free, Stmt.bound, List.mem_cons, List.not_mem_nil, or_false]
      exact or_comm
  | .assign .. | .evaluate .. => simp [Stmt.names, Stmt.free, Stmt.bound]
  | .branch condition thenBranch none _ =>
      simp only [Stmt.names, Stmt.free, Stmt.bound, List.mem_append, thenBranch.mem_names name,
        or_assoc]
  | .branch condition thenBranch (some elseBranch) _ =>
      simp only [Stmt.names, Stmt.free, Stmt.bound, List.mem_append, thenBranch.mem_names name,
        elseBranch.mem_names name, or_assoc, or_left_comm]
  | .block body _ => exact Stmt.mem_allNames body name
  | .loop condition body _ =>
      simp only [Stmt.names, Stmt.free, Stmt.bound, List.mem_append, body.mem_names name, or_assoc]
  | .select scrutinee arms _ =>
      simp only [Stmt.names, Stmt.free, Stmt.bound, List.mem_append, Arm.mem_allNames arms name,
        or_assoc]
  | .attempt body handler _ =>
      simp only [Stmt.names, Stmt.free, Stmt.bound, List.mem_append, body.mem_names name,
        handler.mem_names name]
      exact or_or_or_comm

theorem Stmt.mem_allNames (body : List Stmt) (name : String) :
    name ∈ Stmt.allNames body ↔ name ∈ Stmt.freeAll body ∨ name ∈ Stmt.boundAll body := by
  match body with
  | [] => simp [Stmt.allNames, Stmt.freeAll, Stmt.boundAll]
  | s :: rest =>
      simp only [Stmt.allNames, Stmt.freeAll, Stmt.boundAll, List.mem_append, List.mem_filter,
        decide_eq_true_eq, s.mem_names name, Stmt.mem_allNames rest name]
      -- what `s` itself declares is not free behind it, but it is declared
      by_cases declared : s.declared? = some name
      · simp [Stmt.mem_bound_of_declared? declared]
      · simp only [declared, ne_eq, not_false_eq_true, and_true]
        exact or_or_or_comm

theorem Arm.mem_allNames (arms : List Arm) (name : String) :
    name ∈ Arm.allNames arms ↔ name ∈ Arm.freeAll arms ∨ name ∈ Arm.boundAll arms := by
  match arms with
  | [] => simp [Arm.allNames, Arm.freeAll, Arm.boundAll]
  | .mk none body :: rest =>
      simp only [Arm.allNames, Arm.freeAll, Arm.boundAll, List.mem_append, body.mem_names name,
        Arm.mem_allNames rest name]
      exact or_or_or_comm
  | .mk (some _) body :: rest =>
      simp only [Arm.allNames, Arm.freeAll, Arm.boundAll, List.mem_append, body.mem_names name,
        Arm.mem_allNames rest name, or_assoc, or_left_comm]

end

end Resumable
