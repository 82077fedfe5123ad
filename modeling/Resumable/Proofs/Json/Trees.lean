import Mathlib.Order.MinMax
import Mathlib.Tactic.NormNum
import Resumable.Proofs.Json.Laws
import Resumable.Proofs.Json.Records

/-! Program trees read back from their JSON form. -/

namespace Resumable

open Json

/-! ### Data without parts -/

namespace Position

theorem coordinate?_toInt (n : Int32) : coordinate? (.int n.toInt) = some n := by
  rw [coordinate?, intIn?_int n.minValue_le_toInt n.toInt_le, Option.map_some, n.ofInt_toInt]

theorem ofJson?_json (p : Position) : ofJson? p.json = some p := by
  rw [ofJson?, json, record?_obj rfl (by simp)]
  simp [coordinate?_toInt]

end Position

namespace Location

theorem ofJson?_json (location : Location) : ofJson? location.json = some location := by
  rw [ofJson?, json, record?_obj rfl (by simp)]
  simp [defaulted?, str?, Position.ofJson?_json]

end Location

namespace DataType

theorem json_ne_null (type : DataType) : type.json ≠ .null := by
  cases type <;> simp [json, tagged]

theorem ofJson?_json (type : DataType) : ofJson? type.json = some type := by
  cases type with
  | ref name => rfl
  | _ => exact bareVariant?_name text (by simp [text]) (by simp)

end DataType

namespace BinaryOp

theorem ofJson?_name (op : BinaryOp) : ofJson? (.str op.name) = some op :=
  bareVariant?_name name (by simp [name]) (by cases op <;> simp)

end BinaryOp

namespace UnaryOp

theorem ofJson?_name (op : UnaryOp) : ofJson? (.str op.name) = some op :=
  bareVariant?_name name (by simp [name]) (by cases op <;> simp)

end UnaryOp

namespace Parameter

theorem ofJson?_json (p : Parameter) : ofJson? p.json = some p := by
  rw [ofJson?, json, record?_obj rfl (by simp)]
  simp [defaulted?, str?, DataType.ofJson?_json, Location.ofJson?_json]

end Parameter

theorem Mark.ofJson?_json (mark : Mark) :
    Mark.ofJson? (some (optionJson DataType.json mark.type)) (some mark.location.json) =
      some mark := by
  rw [Mark.ofJson?, optional?_optionJson DataType.json_ne_null DataType.ofJson?_json]
  simp [defaulted?, Location.ofJson?_json]

namespace Value

def doubles : Value → List Double
  | double value => [value]
  | _ => []

theorem word?_toInt (n : Int64) : word? (.int n.toInt) = some n := by
  rw [word?, intIn?_int n.minValue_le_toInt n.toInt_le, Option.map_some, n.ofInt_toInt]

end Value

/-! ### Trees -/

mutual

/-- The doubles of an expression, those in the bodies of function literals included. -/
def Expr.doubles : Expr → List Double
  | .literal value _ => value.doubles
  | .reference .. => []
  | .binary _ left right _ => left.doubles ++ right.doubles
  | .unary _ operand _ => operand.doubles
  | .call _ args _ => Expr.allDoubles args
  | .suspend payload _ => payload.doubles
  | .function _ _ body _ => body.doubles

def Expr.allDoubles : List Expr → List Double
  | [] => []
  | e :: rest => e.doubles ++ Expr.allDoubles rest

def Stmt.doubles : Stmt → List Double
  | .declare _ _ _ value _ => value.doubles
  | .assign _ value _ => value.doubles
  | .evaluate value _ => value.doubles
  | .branch condition thenBranch none _ => condition.doubles ++ thenBranch.doubles
  | .branch condition thenBranch (some elseBranch) _ =>
    condition.doubles ++ (thenBranch.doubles ++ elseBranch.doubles)
  | .block body _ => Stmt.allDoubles body
  | .loop condition body _ => condition.doubles ++ body.doubles
  | .select scrutinee arms _ => scrutinee.doubles ++ Arm.allDoubles arms
  | .attempt body handler _ => body.doubles ++ handler.doubles

def Stmt.allDoubles : List Stmt → List Double
  | [] => []
  | s :: rest => s.doubles ++ Stmt.allDoubles rest

def Arm.allDoubles : List Arm → List Double
  | [] => []
  | .mk none body :: rest => body.doubles ++ Arm.allDoubles rest
  | .mk (some pattern) body :: rest =>
    pattern.doubles ++ (body.doubles ++ Arm.allDoubles rest)

end

theorem Expr.ofJson?_exprJson {kind : Json} {name : String} {payload : Option Json}
    (levels : Nat) (mark : Mark) (variant : kind.variant? = some (name, payload)) :
    Expr.ofJson? (levels + 1) (exprJson kind mark) = Expr.ofVariant? levels name payload mark := by
  rw [Expr.ofJson?, exprJson, record?_obj rfl (by simp)]
  simp [Mark.ofJson?_json, variant]

theorem Stmt.ofJson?_stmtJson (levels : Nat) (name : String) (payload : Json)
    (location : Location) :
    Stmt.ofJson? (levels + 1) (stmtJson name payload location) =
      Stmt.ofVariant? levels name payload location := by
  rw [Stmt.ofJson?, stmtJson, record?_obj rfl (by simp)]
  simp [defaulted?, Location.ofJson?_json, tagged, variant?]

/-- A literal is a variant of its own, none of which is named like another kind of expression. -/
theorem Expr.ofVariant?_literal (levels : Nat) (value : Value) (mark : Mark)
    (finite : ∀ d ∈ value.doubles, d.isFinite = true) :
    ∃ name payload, value.json.variant? = some (name, payload) ∧
      Expr.ofVariant? (levels + 1) name payload mark = some (.literal value mark) := by
  cases value with
  | unit => exact ⟨_, _, rfl, by simp [Expr.ofVariant?, Value.ofVariant?, isBare]⟩
  | bool value => exact ⟨_, _, rfl, by simp [Expr.ofVariant?, Value.ofVariant?, bool?]⟩
  | int value => exact ⟨_, _, rfl, by simp [Expr.ofVariant?, Value.ofVariant?, Value.word?_toInt]⟩
  | double value =>
      have some : value.isFinite = true := finite value (by simp [Value.doubles])
      exact ⟨_, _, rfl, by simp [Expr.ofVariant?, Value.ofVariant?, Value.double?, some]⟩
  | char value => exact ⟨_, _, rfl, by simp [Expr.ofVariant?, Value.ofVariant?, Value.char?]⟩
  | str value => exact ⟨_, _, rfl, by simp [Expr.ofVariant?, Value.ofVariant?, str?]⟩

theorem Expr.three_le_depth (e : Expr) : 3 ≤ e.json.depth := by
  cases e <;> simp [Expr.json, exprJson, Location.json, Position.json, depth, depthOfFields]

theorem Stmt.three_le_depth (s : Stmt) : 3 ≤ s.json.depth := by
  have location (name : String) (payload : Json) (location : Location) :
      3 ≤ (stmtJson name payload location).depth := by
    simp [stmtJson, Location.json, Position.json, depth, depthOfFields]
  match s with
  | .branch _ _ none _ | .branch _ _ (some _) _ => exact location ..
  | .declare .. | .assign .. | .evaluate .. | .block .. | .loop .. | .select .. | .attempt .. =>
      exact location ..

theorem Expr.json_ne_null (e : Expr) : e.json ≠ .null :=
  ne_null_of_depth (Nat.lt_of_lt_of_le (by decide) e.three_le_depth)

theorem Stmt.json_ne_null (s : Stmt) : s.json ≠ .null :=
  ne_null_of_depth (Nat.lt_of_lt_of_le (by decide) s.three_le_depth)

mutual

theorem Expr.ofJson?_json (e : Expr) (levels : Nat)
    (finite : ∀ d ∈ e.doubles, d.isFinite = true) (shallow : e.json.depth ≤ levels) :
    Expr.ofJson? levels e.json = some e := by
  have deep := e.three_le_depth
  obtain ⟨levels, rfl⟩ := Nat.exists_eq_add_of_le' (Nat.le_trans deep shallow)
  match e with
  | .literal value mark =>
      obtain ⟨name, payload, variant, readBack⟩ :=
        Expr.ofVariant?_literal (levels + 1) value mark finite
      rw [Expr.json, Expr.ofJson?_exprJson _ _ variant, readBack]
  | .reference name mark =>
      rw [Expr.json, Expr.ofJson?_exprJson _ _ rfl]
      rfl
  | .binary op left right mark =>
      rw [Expr.doubles, List.forall_mem_append] at finite
      simp only [Expr.json, exprJson, tagged, depth, depthOfFields] at shallow
      have leftBack := left.ofJson?_json (levels + 1) finite.1 (by omega)
      have rightBack := right.ofJson?_json (levels + 1) finite.2 (by omega)
      rw [Expr.json, Expr.ofJson?_exprJson _ _ rfl, Expr.ofVariant?, record?_obj rfl (by simp)]
      simp [BinaryOp.ofJson?_name, leftBack, rightBack]
  | .unary op operand mark =>
      rw [Expr.doubles] at finite
      simp only [Expr.json, exprJson, tagged, depth, depthOfFields] at shallow
      have operandBack := operand.ofJson?_json (levels + 1) finite (by omega)
      rw [Expr.json, Expr.ofJson?_exprJson _ _ rfl, Expr.ofVariant?, record?_obj rfl (by simp)]
      simp [UnaryOp.ofJson?_name, operandBack]
  | .call name args mark =>
      rw [Expr.doubles] at finite
      simp only [Expr.json, exprJson, tagged, depth, depthOfFields] at shallow
      have argsBack := Expr.mapM_jsons args (levels + 1) finite (by omega)
      rw [Expr.json, Expr.ofJson?_exprJson _ _ rfl, Expr.ofVariant?, record?_obj rfl (by simp)]
      simp [str?, arr?, argsBack]
  | .suspend payload mark =>
      rw [Expr.doubles] at finite
      simp only [Expr.json, exprJson, tagged, depth, depthOfFields] at shallow
      have payloadBack := payload.ofJson?_json (levels + 1) finite (by omega)
      rw [Expr.json, Expr.ofJson?_exprJson _ _ rfl, Expr.ofVariant?, payloadBack]
      rfl
  | .function params yieldType body mark =>
      rw [Expr.doubles] at finite
      simp only [Expr.json, exprJson, tagged, depth, depthOfFields] at shallow
      have paramsBack := mapM_map fun p (_ : p ∈ params) => p.ofJson?_json
      have bodyBack := body.ofJson?_json (levels + 1) finite (by omega)
      rw [Expr.json, Expr.ofJson?_exprJson _ _ rfl, Expr.ofVariant?, record?_obj rfl (by simp)]
      simp [arr?, paramsBack, DataType.ofJson?_json, bodyBack]

theorem Expr.mapM_jsons (es : List Expr) (levels : Nat)
    (finite : ∀ d ∈ Expr.allDoubles es, d.isFinite = true)
    (shallow : depthOfAll (Expr.jsons es) ≤ levels) :
    (Expr.jsons es).mapM (Expr.ofJson? levels) = some es := by
  match es with
  | [] => rfl
  | e :: rest =>
      rw [Expr.allDoubles, List.forall_mem_append] at finite
      rw [Expr.jsons, depthOfAll, Nat.max_le] at shallow
      simp [Expr.jsons, e.ofJson?_json levels finite.1 shallow.1,
        Expr.mapM_jsons rest levels finite.2 shallow.2]

theorem Stmt.ofJson?_json (s : Stmt) (levels : Nat)
    (finite : ∀ d ∈ s.doubles, d.isFinite = true) (shallow : s.json.depth ≤ levels) :
    Stmt.ofJson? levels s.json = some s := by
  have deep := s.three_le_depth
  obtain ⟨levels, rfl⟩ := Nat.exists_eq_add_of_le' (Nat.le_trans deep shallow)
  match s with
  | .declare name type mutable value location =>
      rw [Stmt.doubles] at finite
      simp only [Stmt.json, stmtJson, tagged, depth, depthOfFields] at shallow
      have valueBack := value.ofJson?_json (levels + 1) finite (by omega)
      rw [Stmt.json, Stmt.ofJson?_stmtJson, Stmt.ofVariant?, record?_obj rfl (by simp)]
      simp [str?, bool?, DataType.ofJson?_json, valueBack]
  | .assign target value location =>
      rw [Stmt.doubles] at finite
      simp only [Stmt.json, stmtJson, tagged, depth, depthOfFields] at shallow
      have valueBack := value.ofJson?_json (levels + 1) finite (by omega)
      rw [Stmt.json, Stmt.ofJson?_stmtJson, Stmt.ofVariant?, record?_obj rfl (by simp)]
      simp [str?, valueBack]
  | .evaluate value location =>
      rw [Stmt.doubles] at finite
      simp only [Stmt.json, stmtJson, tagged, depth, depthOfFields] at shallow
      have valueBack := value.ofJson?_json (levels + 1) finite (by omega)
      rw [Stmt.json, Stmt.ofJson?_stmtJson, Stmt.ofVariant?, valueBack]
      rfl
  | .branch condition thenBranch none location =>
      rw [Stmt.doubles, List.forall_mem_append] at finite
      simp only [Stmt.json, stmtJson, tagged, depth, depthOfFields] at shallow
      have conditionBack := condition.ofJson?_json (levels + 1) finite.1 (by omega)
      have thenBack := thenBranch.ofJson?_json (levels + 1) finite.2 (by omega)
      rw [Stmt.json, Stmt.ofJson?_stmtJson, Stmt.ofVariant?, record?_obj rfl (by simp)]
      simp [conditionBack, thenBack, optional?]
  | .branch condition thenBranch (some elseBranch) location =>
      rw [Stmt.doubles, List.forall_mem_append, List.forall_mem_append] at finite
      simp only [Stmt.json, stmtJson, tagged, depth, depthOfFields] at shallow
      have conditionBack := condition.ofJson?_json (levels + 1) finite.1 (by omega)
      have thenBack := thenBranch.ofJson?_json (levels + 1) finite.2.1 (by omega)
      have elseBack := elseBranch.ofJson?_json (levels + 1) finite.2.2 (by omega)
      rw [Stmt.json, Stmt.ofJson?_stmtJson, Stmt.ofVariant?, record?_obj rfl (by simp)]
      simp [conditionBack, thenBack, optional?_some elseBranch.json_ne_null elseBack]
  | .block body location =>
      rw [Stmt.doubles] at finite
      simp only [Stmt.json, stmtJson, tagged, depth, depthOfFields] at shallow
      have bodyBack := Stmt.mapM_jsons body (levels + 1) finite (by omega)
      rw [Stmt.json, Stmt.ofJson?_stmtJson, Stmt.ofVariant?]
      simp [arr?, bodyBack]
  | .loop condition body location =>
      rw [Stmt.doubles, List.forall_mem_append] at finite
      simp only [Stmt.json, stmtJson, tagged, depth, depthOfFields] at shallow
      have conditionBack := condition.ofJson?_json (levels + 1) finite.1 (by omega)
      have bodyBack := body.ofJson?_json (levels + 1) finite.2 (by omega)
      rw [Stmt.json, Stmt.ofJson?_stmtJson, Stmt.ofVariant?, record?_obj rfl (by simp)]
      simp [conditionBack, bodyBack]
  | .select scrutinee arms location =>
      rw [Stmt.doubles, List.forall_mem_append] at finite
      simp only [Stmt.json, stmtJson, tagged, depth, depthOfFields] at shallow
      have scrutineeBack := scrutinee.ofJson?_json (levels + 1) finite.1 (by omega)
      have armsBack := Arm.mapM_jsons arms levels finite.2 (by omega)
      rw [Stmt.json, Stmt.ofJson?_stmtJson, Stmt.ofVariant?, record?_obj rfl (by simp)]
      simp [arr?, scrutineeBack, armsBack]
  | .attempt body handler location =>
      rw [Stmt.doubles, List.forall_mem_append] at finite
      simp only [Stmt.json, stmtJson, tagged, depth, depthOfFields] at shallow
      have bodyBack := body.ofJson?_json (levels + 1) finite.1 (by omega)
      have handlerBack := handler.ofJson?_json (levels + 1) finite.2 (by omega)
      rw [Stmt.json, Stmt.ofJson?_stmtJson, Stmt.ofVariant?, record?_obj rfl (by simp)]
      simp [bodyBack, handlerBack]

theorem Stmt.mapM_jsons (ss : List Stmt) (levels : Nat)
    (finite : ∀ d ∈ Stmt.allDoubles ss, d.isFinite = true)
    (shallow : depthOfAll (Stmt.jsons ss) ≤ levels) :
    (Stmt.jsons ss).mapM (Stmt.ofJson? levels) = some ss := by
  match ss with
  | [] => rfl
  | s :: rest =>
      rw [Stmt.allDoubles, List.forall_mem_append] at finite
      rw [Stmt.jsons, depthOfAll, Nat.max_le] at shallow
      simp [Stmt.jsons, s.ofJson?_json levels finite.1 shallow.1,
        Stmt.mapM_jsons rest levels finite.2 shallow.2]

theorem Arm.mapM_jsons (arms : List Arm) (levels : Nat)
    (finite : ∀ d ∈ Arm.allDoubles arms, d.isFinite = true)
    (shallow : depthOfAll (Arm.jsons arms) ≤ levels + 1) :
    (Arm.jsons arms).mapM (Arm.ofJson? (levels + 1)) = some arms := by
  match arms with
  | [] => rfl
  | .mk none body :: rest =>
      rw [Arm.allDoubles, List.forall_mem_append] at finite
      rw [Arm.jsons, depthOfAll, Nat.max_le] at shallow
      simp only [depth, depthOfFields] at shallow
      have bodyBack := body.ofJson?_json levels finite.1 (by omega)
      have restBack := Arm.mapM_jsons rest levels finite.2 shallow.2
      rw [Arm.jsons, List.mapM_cons, restBack, Arm.ofJson?, record?_obj rfl (by simp)]
      simp [bodyBack, optional?]
  | .mk (some pattern) body :: rest =>
      rw [Arm.allDoubles, List.forall_mem_append, List.forall_mem_append] at finite
      rw [Arm.jsons, depthOfAll, Nat.max_le] at shallow
      simp only [depth, depthOfFields] at shallow
      have patternBack := pattern.ofJson?_json levels finite.1 (by omega)
      have bodyBack := body.ofJson?_json levels finite.2.1 (by omega)
      have restBack := Arm.mapM_jsons rest levels finite.2.2 shallow.2
      rw [Arm.jsons, List.mapM_cons, restBack, Arm.ofJson?, record?_obj rfl (by simp)]
      simp [bodyBack, optional?_some pattern.json_ne_null patternBack]

end

/-! ### Numbers in trees -/

variable {texts : Texts}

theorem wordSized_int32 (n : Int32) : WordSized n.toInt := by
  have least := n.le_toInt
  have most := n.toInt_lt
  norm_num [WordSized, UInt64.size]
  omega

theorem wordSized_int64 (n : Int64) : WordSized n.toInt := by
  have least := n.le_toInt
  have most := n.toInt_lt
  norm_num [WordSized, UInt64.size]
  omega

theorem wordSized_natCast {n : Nat} (fits : n < UInt64.size) : WordSized n :=
  ⟨by omega, by exact_mod_cast fits⟩

theorem legibleItems_map {α : Type} {write : α → Json} {xs : List α}
    (each : ∀ x ∈ xs, (write x).Legible texts) : LegibleItems texts (xs.map write) := by
  induction xs with
  | nil => trivial
  | cons x xs ih =>
      rw [List.forall_mem_cons] at each
      exact ⟨each.1, ih each.2⟩

theorem Location.legible_json (location : Location) : location.json.Legible texts := by
  simp [Location.json, Position.json, Legible, LegibleFields, wordSized_int32]

theorem DataType.legible_json (type : DataType) : type.json.Legible texts := by
  cases type <;> simp [DataType.json, tagged, Legible, LegibleFields]

theorem Parameter.legible_json (p : Parameter) : p.json.Legible texts := by
  simp [Parameter.json, Legible, LegibleFields, DataType.legible_json, Location.legible_json]

theorem Value.legible_json {value : Value} (readBack : ∀ d ∈ value.doubles, texts.Rereads d) :
    value.json.Legible texts := by
  cases value with
  | int value => simp [Value.json, tagged, Legible, LegibleFields, wordSized_int64]
  | double value =>
      have back := readBack value (by simp [Value.doubles])
      simp only [Value.json, tagged, Legible, LegibleFields, and_true]
      split
      · exact back
      · trivial
  | _ => simp [Value.json, tagged, Legible, LegibleFields]

theorem legible_exprJson {kind : Json} (mark : Mark) (legible : kind.Legible texts) :
    (exprJson kind mark).Legible texts := by
  refine ⟨legible, ?_, mark.location.legible_json, trivial⟩
  cases mark.type with
  | none => trivial
  | some type => exact type.legible_json

theorem legible_stmtJson {payload : Json} (name : String) (location : Location)
    (legible : payload.Legible texts) : (stmtJson name payload location).Legible texts :=
  ⟨⟨legible, trivial⟩, location.legible_json, trivial⟩

mutual

theorem Expr.legible_json (e : Expr) (readBack : ∀ d ∈ e.doubles, texts.Rereads d) :
    e.json.Legible texts := by
  match e with
  | .literal value mark => exact legible_exprJson mark (Value.legible_json readBack)
  | .reference name mark => exact legible_exprJson mark ⟨trivial, trivial⟩
  | .binary op left right mark =>
      rw [Expr.doubles, List.forall_mem_append] at readBack
      exact legible_exprJson mark ⟨⟨trivial, left.legible_json readBack.1,
        right.legible_json readBack.2, trivial⟩, trivial⟩
  | .unary op operand mark =>
      exact legible_exprJson mark ⟨⟨trivial, operand.legible_json readBack, trivial⟩, trivial⟩
  | .call name args mark =>
      exact legible_exprJson mark ⟨⟨trivial, Expr.legible_jsons args readBack, trivial⟩, trivial⟩
  | .suspend payload mark =>
      exact legible_exprJson mark ⟨payload.legible_json readBack, trivial⟩
  | .function params yieldType body mark =>
      exact legible_exprJson mark ⟨⟨legibleItems_map fun p _ => p.legible_json,
        yieldType.legible_json, body.legible_json readBack, trivial⟩, trivial⟩

theorem Expr.legible_jsons (es : List Expr)
    (readBack : ∀ d ∈ Expr.allDoubles es, texts.Rereads d) : LegibleItems texts (Expr.jsons es) := by
  match es with
  | [] => trivial
  | e :: rest =>
      rw [Expr.allDoubles, List.forall_mem_append] at readBack
      exact ⟨e.legible_json readBack.1, Expr.legible_jsons rest readBack.2⟩

theorem Stmt.legible_json (s : Stmt) (readBack : ∀ d ∈ s.doubles, texts.Rereads d) :
    s.json.Legible texts := by
  match s with
  | .declare name type mutable value location =>
      exact legible_stmtJson _ location ⟨trivial, type.legible_json, trivial,
        value.legible_json readBack, trivial⟩
  | .assign target value location =>
      exact legible_stmtJson _ location ⟨trivial, value.legible_json readBack, trivial⟩
  | .evaluate value location => exact legible_stmtJson _ location (value.legible_json readBack)
  | .branch condition thenBranch none location =>
      rw [Stmt.doubles, List.forall_mem_append] at readBack
      exact legible_stmtJson _ location ⟨condition.legible_json readBack.1,
        thenBranch.legible_json readBack.2, trivial, trivial⟩
  | .branch condition thenBranch (some elseBranch) location =>
      rw [Stmt.doubles, List.forall_mem_append, List.forall_mem_append] at readBack
      exact legible_stmtJson _ location ⟨condition.legible_json readBack.1,
        thenBranch.legible_json readBack.2.1, elseBranch.legible_json readBack.2.2, trivial⟩
  | .block body location =>
      exact legible_stmtJson _ location (Stmt.legible_jsons body readBack)
  | .loop condition body location =>
      rw [Stmt.doubles, List.forall_mem_append] at readBack
      exact legible_stmtJson _ location ⟨condition.legible_json readBack.1,
        body.legible_json readBack.2, trivial⟩
  | .select scrutinee arms location =>
      rw [Stmt.doubles, List.forall_mem_append] at readBack
      exact legible_stmtJson _ location ⟨scrutinee.legible_json readBack.1,
        Arm.legible_jsons arms readBack.2, trivial⟩
  | .attempt body handler location =>
      rw [Stmt.doubles, List.forall_mem_append] at readBack
      exact legible_stmtJson _ location ⟨body.legible_json readBack.1,
        handler.legible_json readBack.2, trivial⟩

theorem Stmt.legible_jsons (ss : List Stmt)
    (readBack : ∀ d ∈ Stmt.allDoubles ss, texts.Rereads d) : LegibleItems texts (Stmt.jsons ss) := by
  match ss with
  | [] => trivial
  | s :: rest =>
      rw [Stmt.allDoubles, List.forall_mem_append] at readBack
      exact ⟨s.legible_json readBack.1, Stmt.legible_jsons rest readBack.2⟩

theorem Arm.legible_jsons (arms : List Arm)
    (readBack : ∀ d ∈ Arm.allDoubles arms, texts.Rereads d) : LegibleItems texts (Arm.jsons arms) := by
  match arms with
  | [] => trivial
  | .mk none body :: rest =>
      rw [Arm.allDoubles, List.forall_mem_append] at readBack
      exact ⟨⟨trivial, body.legible_json readBack.1, trivial⟩, Arm.legible_jsons rest readBack.2⟩
  | .mk (some pattern) body :: rest =>
      rw [Arm.allDoubles, List.forall_mem_append, List.forall_mem_append] at readBack
      exact ⟨⟨pattern.legible_json readBack.1, body.legible_json readBack.2.1, trivial⟩,
        Arm.legible_jsons rest readBack.2.2⟩

end

end Resumable
