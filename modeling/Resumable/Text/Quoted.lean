import Resumable.Text.Hidden

/-! Quoted text and characters, as they stand in program text. -/

namespace Resumable.Text

def apostrophe : Char := '\x27'

def quotationMark : Char := '\x22'

def backslash : Char := '\x5c'

def hexDigits (n : Nat) : List Char := Nat.toDigits 16 n

/-- Control characters with short names are written by those, the mark around the text and the
backslash by a backslash before them, hidden characters by their code point. -/
def escapeChar (mark c : Char) : List Char :=
  if c = '\x00' then [backslash, '0']
  else if c = '\t' then [backslash, 't']
  else if c = '\r' then [backslash, 'r']
  else if c = '\n' then [backslash, 'n']
  else if c = backslash || c = mark then [backslash, c]
  else if isHidden c then [backslash, 'u', '\x7b'] ++ hexDigits c.toNat ++ ['\x7d']
  else [c]

def quoteWith (mark : Char) (cs : List Char) : String :=
  String.ofList (mark :: cs.flatMap (escapeChar mark) ++ [mark])

def quoteString (s : String) : String := quoteWith quotationMark s.toList

def quoteChar (c : Char) : String := quoteWith apostrophe [c]

end Resumable.Text
