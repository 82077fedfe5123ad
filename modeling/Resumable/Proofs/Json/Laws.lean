import Resumable.Json.Texts

/-! What is relied on of the text of JSON values: a value is read back from its text. -/

namespace Resumable.Json

/-- Integers of a signed or an unsigned word are kept apart from other numbers. -/
def WordSized (n : Int) : Prop := -Nat.pow 2 63 ≤ n ∧ n < UInt64.size

namespace Texts

/-- What a value may be written as. -/
def written (texts : Texts) (json : Json) : List String := [texts.compact json, texts.pretty json]

/-- Whether a double by itself is read back. -/
def Rereads (texts : Texts) (d : Double) : Prop :=
  ∀ text ∈ texts.written (.float d), texts.read text = .ok (.float d, none)

/-- Whether the finite ones of some doubles are read back. -/
def Keeps (texts : Texts) (doubles : List Double) : Prop :=
  ∀ d ∈ doubles, d.isFinite = true → texts.Rereads d

end Texts

mutual

/-- Whether every number of the value is read back: integers have to fit a word. -/
def Legible (texts : Texts) : Json → Prop
  | int value => WordSized value
  | float value => texts.Rereads value
  | arr items => LegibleItems texts items
  | obj fields => LegibleFields texts fields
  | _ => True

def LegibleItems (texts : Texts) : List Json → Prop
  | [] => True
  | item :: rest => item.Legible texts ∧ LegibleItems texts rest

def LegibleFields (texts : Texts) : List (String × Json) → Prop
  | [] => True
  | (_, value) :: rest => value.Legible texts ∧ LegibleFields texts rest

end

/-- Texts are lawful if a value is all that is read from its text, whichever way it is written, where
its numbers are read back and its lists and objects aren't nested too deep. -/
structure Texts.Lawful (texts : Texts) : Prop where
  reads_back : ∀ json : Json, json.Legible texts → json.depth ≤ fileLevels →
    ∀ text ∈ texts.written json, texts.read text = .ok (json, none)

end Resumable.Json
