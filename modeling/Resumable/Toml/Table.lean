import Resumable.Toml.Entry
import Resumable.Toml.Value

/-! The table that a TOML text describes. A fault is reported by its line; faults of the layout come
before all others. -/

namespace Resumable.Toml

/-- Fields in the order of their names, each with the line on which its value begins. -/
abbrev Fields := List (String × Nat × Value)

namespace Fields

def get? (fields : Fields) (name : String) : Option (Nat × Value) := fields.lookup name

def set (fields : Fields) (name : String) (entry : Nat × Value) : Fields :=
  match fields with
  | [] => [(name, entry)]
  | first :: rest =>
    if name < first.1 then (name, entry) :: first :: rest
    else if name = first.1 then (name, entry) :: rest
    else first :: set rest name entry

end Fields

/-- The fields that a path goes on from at a value, with the value that has others in their place. A
table on the way of a dotted key counts as made by one. A list made by headers stands for its last
table, but not where a dotted key is to set a field of it: there the path is at its `last` step. -/
def Value.inside? (dotted last : Bool) : Value → Option (Fields × (Fields → Value))
  | .table origin fields =>
    if origin = .inline || (dotted && origin = .header) then none
    else some (fields, .table (if dotted then .dotted else origin))
  | .list true items =>
    match items.getLast? with
    | some (line, .table origin fields) =>
      if dotted && last then none
      else
        some (fields, fun fields => .list true (items.dropLast ++ [(line, .table origin fields)]))
    | _ => none
  | _ => none

namespace Fields

def find : List (String × Nat) → Fields → Except Nat Fields
  | [], fields => .ok fields
  | (name, line) :: path, fields =>
    match fields.get? name with
    | none => .ok []
    | some (_, value) =>
      match value.inside? false path.isEmpty with
      | some (inner, _) => find path inner
      | none => .error line

/-- Changes the table that a path leads to, which begins with this table. The tables on the way are
made if there are none. -/
def modify (dotted : Bool) (change : Fields → Except Nat Fields) :
    List (String × Nat) → Fields → Except Nat Fields
  | [], fields => change fields
  | (name, line) :: path, fields =>
    match fields.get? name with
    | none => do
      let inner ← modify dotted change path []
      return fields.set name (line, .table (if dotted then .dotted else .path) inner)
    | some (start, value) =>
      match value.inside? dotted path.isEmpty with
      | some (inner, around) => do
        let inner ← modify dotted change path inner
        return fields.set name (start, around inner)
      | none => .error line

def add (path : List (String × Nat)) (name : String) (line : Nat) (entry : Nat × Value) :
    Fields → Except Nat Fields :=
  modify true (fun inner =>
    if (inner.get? name).isSome then .error line else .ok (inner.set name entry)) path

end Fields

def keyParts? (key : List Word) : Except Nat (List (String × Nat)) :=
  key.mapM fun word => return (← word.keyPart, word.line)

def partLimit : Nat := 80

/-- The path and the name that a key ends with. A key of too many parts is at fault on the first
line, wherever it stands. -/
def splitKey (key : List Word) : Except Nat (List (String × Nat) × String × Nat) := do
  let parts ← keyParts? key
  if partLimit < parts.length then .error 0
  match parts.getLast? with
  | some (name, line) => return (parts.dropLast, name, line)
  | none => .error 0

namespace Written

def line : Written → Nat
  | word w => w.line
  | list line _ => line
  | table line _ => line

mutual

def value : Written → Except Nat Value
  | word w => w.value
  | list _ items => return .list false (← valueOfItems items)
  | table _ fields => return .table .inline (← valueOfFields [] fields)

def valueOfItems : List Written → Except Nat (List (Nat × Value))
  | [] => .ok []
  | item :: rest => return (item.line, ← item.value) :: (← valueOfItems rest)

def valueOfFields (done : Fields) : List (List Word × Written) → Except Nat Fields
  | [] => .ok done
  | (key, written) :: rest => do
    let (path, name, line) ← splitKey key
    let value ← written.value
    valueOfFields (← Fields.add path name line (written.line, value) done) rest

end
end Written

/-- The place of a table under a header of its own. -/
structure Header where
  inList : Bool
  path : List (String × Nat)
  name : String
  line : Nat

namespace Header

/-- The fields that the table has before its own are read. A table goes on only if it was made in
the path of another header; one of a list is new. -/
def opened (header : Header) (fields : Fields) : Except Nat Fields :=
  if header.inList then .ok []
  else do
    match (← fields.find header.path).get? header.name with
    | none => return []
    | some (_, .table .path inner) => return inner
    | some _ => .error header.line

def put (header : Header) (table fields : Fields) : Except Nat Fields :=
  fields.modify false (fun inner =>
    let entry := (header.line, Value.table .header table)
    match header.inList, inner.get? header.name with
    | false, _ => .ok (inner.set header.name entry)
    | true, none => .ok (inner.set header.name (header.line, .list true [entry]))
    | true, some (start, .list true items) =>
      .ok (inner.set header.name (start, .list true (items ++ [entry])))
    | true, some _ => .error header.line) header.path

end Header

/-- What the entries so far describe: the table that is being read, and the fields of the text
around it. The fields ahead of all headers are a table of their own. -/
structure Document where
  fields : Fields := []
  header : Option Header := none
  table : Fields := []

namespace Document

def close (document : Document) : Except Nat Fields :=
  match document.header with
  | none => .ok document.table
  | some header => header.put document.table document.fields

def add (document : Document) : Entry → Except Nat Document
  | .header inList key => do
    let fields ← document.close
    let (path, name, line) ← splitKey key
    let header : Header := ⟨inList, path, name, line⟩
    return ⟨fields, some header, ← header.opened fields⟩
  | .field key written => do
    let (path, name, line) ← splitKey key
    let value ← written.value
    return { document with table := ← document.table.add path name line (written.line, value) }

end Document

def read (text : String) : Except Nat Fields := do
  let tokens := Token.ofText text
  let document ← (← entries tokens.length tokens).foldlM Document.add {}
  document.close

end Resumable.Toml
