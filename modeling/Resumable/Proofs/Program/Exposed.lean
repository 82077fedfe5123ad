import Resumable.Proofs.Program.Names

/-! The names a statement adds to the scope it is lowered in. A block of one statement is lowered
without a scope, so a declaration in it stays visible behind the block. -/

namespace Resumable

/-- The name that a block of one statement adds to the scope around it, or a declaration to its own.
-/
def Stmt.exposes? : Stmt → Option String
  | .declare name .. => some name
  | .block [only] _ => only.exposes?
  | _ => none

/-- The name that lowering sees behind a block where evaluation has left its scope. -/
def Stmt.leaks? : Stmt → Option String
  | .declare .. => none
  | s => s.exposes?

mutual

/-- Whether no leaked name is used behind its block. Constructs that are kept whole leak nothing. -/
def Stmt.contained : Stmt → Bool
  | .branch _ thenBranch none _ => thenBranch.contained
  | .branch _ thenBranch (some elseBranch) _ => thenBranch.contained && elseBranch.contained
  | .block body _ => Stmt.containedAll body
  | _ => true

def Stmt.containedAll : List Stmt → Bool
  | [] => true
  | s :: rest => s.contained && s.leaks?.all (fun name => !(Stmt.freeAll rest).contains name) &&
    Stmt.containedAll rest

end

mutual

/-- Whether no block has a declaration as its only statement, be it inside of further such blocks. -/
def Stmt.sheltered : Stmt → Bool
  | .declare .. => true
  | .assign .. => true
  | .evaluate .. => true
  | .branch _ thenBranch none _ => thenBranch.sheltered
  | .branch _ thenBranch (some elseBranch) _ => thenBranch.sheltered && elseBranch.sheltered
  | .block body location =>
    (Stmt.block body location).exposes?.isNone && Stmt.allSheltered body
  | .loop _ body _ => body.sheltered
  | .select _ arms _ => Arm.allSheltered arms
  | .attempt body handler _ => body.sheltered && handler.sheltered

def Stmt.allSheltered : List Stmt → Bool
  | [] => true
  | s :: rest => s.sheltered && Stmt.allSheltered rest

def Arm.allSheltered : List Arm → Bool
  | [] => true
  | .mk _ body :: rest => body.sheltered && Arm.allSheltered rest

end

namespace Stmt

variable {s : Stmt} {rest : List Stmt} {name : String}

theorem leaks?_eq (plain : s.declared? = none) : s.leaks? = s.exposes? := by
  cases s with
  | declare => simp [declared?] at plain
  | _ => rfl

theorem containedAll_cons : containedAll (s :: rest) = true ↔
    s.contained = true ∧ (∀ name, s.leaks? = some name → name ∉ freeAll rest) ∧
      containedAll rest = true := by
  simp only [containedAll, Bool.and_eq_true, and_assoc]
  cases s.leaks? with
  | none => simp
  | some leaked => simp

theorem leaks?_of_sheltered (sheltered : s.sheltered = true) : s.leaks? = none := by
  cases s with
  | block body location =>
      rw [Stmt.sheltered, Bool.and_eq_true] at sheltered
      exact Option.isNone_iff_eq_none.mp sheltered.1
  | _ => rfl

mutual

theorem contained_of_sheltered (s : Stmt) (sheltered : s.sheltered = true) :
    s.contained = true := by
  match s with
  | .branch _ thenBranch none _ => exact thenBranch.contained_of_sheltered sheltered
  | .branch _ thenBranch (some elseBranch) _ =>
      obtain ⟨first, second⟩ := Bool.and_eq_true_iff.mp sheltered
      exact Bool.and_eq_true_iff.mpr ⟨thenBranch.contained_of_sheltered first,
        elseBranch.contained_of_sheltered second⟩
  | .block body _ => exact containedAll_of_sheltered body (Bool.and_eq_true_iff.mp sheltered).2
  | .declare .. | .assign .. | .evaluate .. | .loop .. | .select .. | .attempt .. => rfl

theorem containedAll_of_sheltered (body : List Stmt) (sheltered : allSheltered body = true) :
    containedAll body = true := by
  match body with
  | [] => rfl
  | s :: rest =>
      obtain ⟨first, others⟩ := Bool.and_eq_true_iff.mp sheltered
      refine containedAll_cons.mpr ⟨s.contained_of_sheltered first, fun name leaks => ?_,
        containedAll_of_sheltered rest others⟩
      rw [leaks?_of_sheltered first] at leaks
      cases leaks

end

end Stmt
end Resumable
