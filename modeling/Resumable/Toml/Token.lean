/-! Tokens of a TOML text, each with its line. Quoted text is kept as it is written. -/

namespace Resumable.Toml

/-- How a word is written: as it is, between single marks or between threefold marks. -/
inductive Quoting where
  | plain
  | literal
  | basic
  | literalBlock
  | basicBlock
  deriving DecidableEq

/-- A word with the marks around it, and the line on which it begins. -/
structure Word where
  quoting : Quoting
  raw : List Char
  line : Nat

/-- `lineEnd whole` is a line feed, with or without a carriage return, or a return that stands
alone. A comment is `clean` without control characters. `finish` knows the line on which the last
token ends that is no blank, comment or line end. -/
inductive Symbol where
  | dot
  | equals
  | comma
  | openList
  | closeList
  | openTable
  | closeTable
  | blank (raw : List Char)
  | lineEnd (whole : Bool)
  | comment (clean : Bool)
  | word (quoting : Quoting) (raw : List Char)
  | finish (contentLine : Nat)

structure Token where
  symbol : Symbol
  line : Nat

namespace Word

def missing (line : Nat) : Word := ⟨.plain, [], line⟩

def isMissing (w : Word) : Bool := w.quoting = .plain && w.raw.isEmpty

end Word

def isBlank (c : Char) : Bool := c = ' ' || c = '\t'

def isPrintable (c : Char) : Bool := c = '\t' || (0x20 ≤ c.toNat && c.toNat ≠ 0x7f)

def endsWord (c : Char) : Bool := ".=,[]\x7b\x7d \t#\r\n".toList.contains c

def lineFeeds (cs : List Char) : Nat := cs.count '\n'

namespace Symbol

/-- The number of characters up to the closing mark, the mark included. A line feed ends the text
without being part of it. -/
def quotedLength (mark : Char) (escapes : Bool) : List Char → Nat
  | [] => 0
  | '\x5c' :: c :: rest =>
    if escapes && (c = '\x5c' || c = mark) then quotedLength mark escapes rest + 2
    else quotedLength mark escapes (c :: rest) + 1
  | c :: rest =>
    if c = mark then 1 else if c = '\n' then 0 else quotedLength mark escapes rest + 1

/-- The number of characters up to the threefold closing mark, which may follow on one or two marks
that are text. -/
def blockLength (mark : Char) (escapes : Bool) : List Char → Nat
  | [] => 0
  | '\x5c' :: c :: rest =>
    if escapes && (c = '\x5c' || c = mark) then blockLength mark escapes rest + 2
    else blockLength mark escapes (c :: rest) + 1
  | c :: rest =>
    if [c, c, c].isPrefixOf (c :: rest) && c = mark then
      3 + ((rest.drop 2).take 2 |>.takeWhile (· = mark)).length
    else blockLength mark escapes rest + 1

def quoted (mark : Char) (escapes : Bool) (single threefold : Quoting) (text : List Char) :
    Symbol :=
  if [mark, mark].isPrefixOf text then
    .word threefold (mark :: text.take (2 + blockLength mark escapes (text.drop 2)))
  else .word single (mark :: text.take (quotedLength mark escapes text))

def first (c : Char) (rest : List Char) : Symbol :=
  match c with
  | '.' => .dot
  | '=' => .equals
  | ',' => .comma
  | '[' => .openList
  | ']' => .closeList
  | '\x7b' => .openTable
  | '\x7d' => .closeTable
  | '\n' => .lineEnd true
  | '\r' => .lineEnd (rest.head? = some '\n')
  | '#' => .comment ((rest.takeWhile fun c => c ≠ '\r' && c ≠ '\n').all isPrintable)
  | '\x27' => quoted '\x27' false .literal .literalBlock rest
  | '\x22' => quoted '\x22' true .basic .basicBlock rest
  | ' ' | '\t' => .blank (c :: rest.takeWhile isBlank)
  | _ => .word .plain (c :: rest.takeWhile fun c => !endsWord c)

def behind (c : Char) (rest : List Char) : List Char :=
  match first c rest with
  | .word _ raw | .blank raw => rest.drop (raw.length - 1)
  | .comment _ => rest.dropWhile fun c => c ≠ '\r' && c ≠ '\n'
  | .lineEnd true => if c = '\r' then rest.drop 1 else rest
  | _ => rest

theorem behind_length (c : Char) (rest : List Char) : (behind c rest).length ≤ rest.length := by
  unfold behind
  split
  · simp
  · simp
  · exact (List.dropWhile_suffix _).length_le
  · split <;> simp
  · simp

def isContent : Symbol → Bool
  | .blank _ | .comment _ | .lineEnd _ => false
  | _ => true

end Symbol

namespace Token

def tokens (line contentLine : Nat) : List Char → List Token
  | [] => [⟨.finish contentLine, line⟩]
  | c :: rest =>
    let symbol := Symbol.first c rest
    let after := Symbol.behind c rest
    let next := line + lineFeeds ((c :: rest).take (rest.length + 1 - after.length))
    ⟨symbol, line⟩ :: tokens next (if symbol.isContent then next else contentLine) after
  termination_by cs => cs.length
  decreasing_by exact Nat.lt_succ_of_le (Symbol.behind_length c rest)

def ofText (text : String) : List Token :=
  match text.toList with
  | '\ufeff' :: rest => tokens 0 0 rest
  | cs => tokens 0 0 cs

end Token
end Resumable.Toml
