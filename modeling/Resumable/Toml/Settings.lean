import Resumable.Settings
import Resumable.Toml.Table

/-! Settings read from a TOML text. -/

namespace Resumable
namespace Toml

mutual

/-- The line of the first number, if there is one, that is none or that no word and no double holds.
-/
def Value.outOfRange? (line : Nat) : Value → Option Nat
  | .integer (some number) => if -2 ^ 127 ≤ number && number < 2 ^ 128 then none else some line
  | .integer none | .float none => some line
  | .list _ items => outOfRangeItem? items
  | .table _ fields => outOfRangeField? fields
  | _ => none

def outOfRangeItem? : List (Nat × Value) → Option Nat
  | [] => none
  | (line, item) :: rest => item.outOfRange? line <|> outOfRangeItem? rest

def outOfRangeField? : List (String × Nat × Value) → Option Nat
  | [] => none
  | (_, line, value) :: rest => value.outOfRange? line <|> outOfRangeField? rest

end

end Toml

namespace Settings

open Toml

def setField (settings : Settings) (name : String) (line : Nat) (value : Toml.Value) :
    Except Nat Settings :=
  match name, value with
  | "persist_immutable_captures", .bool b => .ok { settings with persistImmutable := b }
  | "strict_control_flow", .bool b => .ok { settings with strict := b }
  | "max_resumes", .integer (some n) =>
    if 0 ≤ n && n < UInt64.size then .ok { settings with maxResumes := n.toNat } else .error line
  | "val_stack_name", .text name => .ok { settings with valueStack := name }
  | "ref_stack_name", .text name => .ok { settings with referenceStack := name }
  | _, _ =>
    if ["persist_immutable_captures", "strict_control_flow", "max_resumes", "val_stack_name",
        "ref_stack_name"].contains name then .error line
    else match value.outOfRange? line with
      | some line => .error line
      | none => .ok settings

def setFields (settings : Settings) : Fields → Except Nat Settings
  | [] => .ok settings
  | (name, line, value) :: rest => do setFields (← settings.setField name line value) rest

def ofToml (text : String) : Except Failure Settings :=
  match Toml.read text >>= setFields {} with
  | .ok settings => settings.validate
  | .error line =>
    .error { fault := .settings .malformed, location := .wholeLine (Int32.ofNat line) }

def load (path : String) (text? : Option String) : Except Failure Settings :=
  match text? with
  | none => .error { fault := .file .unreadableSettings, location := { scope := path } }
  | some text => (ofToml text).mapError (·.withScope path)

end Settings
end Resumable
