import Resumable.Json.Printer
import Resumable.Json.Reader
import Resumable.Json.Texts

/-! The texts that the program itself works with. -/

namespace Resumable.Json

def countLines (cs : List Char) : Nat := cs.count '\n'

/-- The line, from zero, on which a failure is reported that leaves `rest` of the text. -/
def lineBefore (text rest : List Char) : Nat := countLines text - countLines rest

def Texts.standard : Texts where
  compact := Json.compact
  pretty := Json.pretty 0
  read text :=
    let cs := text.toList
    match value fileLevels cs with
    | .error rest => .error (lineBefore cs rest)
    | .ok (json, rest) =>
      match skipBlank rest with
      | [] => .ok (json, none)
      | _ :: more => .ok (json, some (lineBefore cs more))

end Resumable.Json
