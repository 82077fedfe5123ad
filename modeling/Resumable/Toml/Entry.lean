import Resumable.Toml.Token

/-! The layout of a TOML text: headers and assignments whose words are not read yet. A fault of the
layout is reported by its line. A word that is missing is no fault here, and neither is a header
that breaks off where its next word should stand. -/

namespace Resumable.Toml

/-- A value as it is written. -/
inductive Written where
  | word (word : Word)
  | list (line : Nat) (items : List Written)
  | table (line : Nat) (fields : List (List Word × Written))

inductive Entry where
  | header (inList : Bool) (key : List Word)
  | field (key : List Word) (value : Written)

def skipBlanks : List Token → List Token
  | ⟨.blank _, _⟩ :: rest => skipBlanks rest
  | tokens => tokens

def nextLine : List Token → Nat
  | [] => 0
  | token :: _ => token.line

/-- Reads the rest of a dotted key. A word is `expected` at the start and behind a dot. -/
def keyParts (expected : Bool) : List Token → List Word × List Token
  | ⟨.blank _, _⟩ :: rest => keyParts expected rest
  | ⟨.dot, line⟩ :: rest =>
    let (parts, rest) := keyParts true rest
    (if expected then .missing line :: parts else parts, rest)
  | ⟨.word quoting raw, line⟩ :: rest =>
    if expected then
      let (parts, rest) := keyParts false rest
      (⟨quoting, raw, line⟩ :: parts, rest)
    else ([], ⟨.word quoting raw, line⟩ :: rest)
  | tokens => (if expected then [.missing (nextLine tokens)] else [], tokens)

def key (tokens : List Token) : List Word × List Token := keyParts true tokens

/-- Joins what belongs to a number or a date to its first word. -/
def joined (raw : List Char) : List Token → List Char × List Token
  | ⟨.dot, _⟩ :: rest => joined (raw ++ ['.']) rest
  | ⟨.word .plain more, _⟩ :: rest => joined (raw ++ more) rest
  | ⟨.blank space, _⟩ :: ⟨.word .plain more, _⟩ :: rest => joined (raw ++ space ++ more) rest
  | tokens => (raw, tokens)

abbrev Reading := Except Nat

/-- Passes a comment, blanks and line ends, or reports the one that may not stand in a text. -/
def skipLines : List Token → Reading (List Token)
  | ⟨.blank _, _⟩ :: rest => skipLines rest
  | ⟨.comment clean, line⟩ :: rest => if clean then skipLines rest else .error line
  | ⟨.lineEnd whole, line⟩ :: rest => if whole then skipLines rest else .error line
  | tokens => .ok tokens

def items (item : List Token → Reading (Written × List Token)) :
    Nat → List Token → Reading (List Written × List Token)
  | 0, tokens => .error (nextLine tokens)
  | rounds + 1, tokens => do
    match ← skipLines tokens with
    | ⟨.closeList, _⟩ :: rest => return ([], rest)
    | ⟨.finish contentLine, _⟩ :: _ => .error contentLine
    | ⟨.comma, line⟩ :: _ => .error line
    | ⟨.equals, line⟩ :: _ => .error line
    | tokens =>
      let (first, rest) ← item tokens
      match ← skipLines rest with
      | ⟨.closeList, _⟩ :: rest => return ([first], rest)
      | ⟨.comma, _⟩ :: rest =>
        let (others, rest) ← items item rounds rest
        return (first :: others, rest)
      | ⟨.finish contentLine, _⟩ :: _ => .error contentLine
      | rest => .error (nextLine rest)

/-- Reads what follows the key of a field. Behind a key or an equals sign the closing brace stands
for a value that is missing. -/
def fieldValue (value : List Token → Reading (Written × List Token)) (tokens : List Token) :
    Reading (Written × List Token) := do
  match ← skipLines tokens with
  | ⟨.closeTable, line⟩ :: rest => return (.word (.missing line), ⟨.closeTable, line⟩ :: rest)
  | ⟨.finish contentLine, _⟩ :: _ => .error contentLine
  | ⟨.equals, _⟩ :: rest =>
    match ← skipLines rest with
    | ⟨.closeTable, line⟩ :: rest => return (.word (.missing line), ⟨.closeTable, line⟩ :: rest)
    | ⟨.finish contentLine, _⟩ :: _ => .error contentLine
    | ⟨.comma, line⟩ :: _ => .error line
    | tokens => value tokens
  | rest => .error (nextLine rest)

def fields (value : List Token → Reading (Written × List Token)) :
    Nat → List Token → Reading (List (List Word × Written) × List Token)
  | 0, tokens => .error (nextLine tokens)
  | rounds + 1, tokens => do
    let tokens ← skipLines tokens
    match tokens with
    | ⟨.closeTable, _⟩ :: rest => return ([], rest)
    | ⟨.finish contentLine, _⟩ :: _ => .error contentLine
    | ⟨.word _ _, _⟩ :: _ | ⟨.dot, _⟩ :: _ | ⟨.equals, _⟩ :: _ =>
      let (parts, rest) := key tokens
      let (first, rest) ← fieldValue value rest
      match ← skipLines rest with
      | ⟨.closeTable, _⟩ :: rest => return ([(parts, first)], rest)
      | ⟨.comma, _⟩ :: rest =>
        let (others, rest) ← fields value rounds rest
        return ((parts, first) :: others, rest)
      | ⟨.finish contentLine, _⟩ :: _ => .error contentLine
      | rest => .error (nextLine rest)
    | rest => .error (nextLine rest)

def value : Nat → List Token → Reading (Written × List Token)
  | _, ⟨.word .plain raw, line⟩ :: rest =>
    let (raw, rest) := joined raw rest
    .ok (.word ⟨.plain, raw, line⟩, rest)
  | _, ⟨.dot, line⟩ :: rest =>
    let (raw, rest) := joined ['.'] rest
    .ok (.word ⟨.plain, raw, line⟩, rest)
  | _, ⟨.word quoting raw, line⟩ :: rest => .ok (.word ⟨quoting, raw, line⟩, rest)
  | levels + 1, ⟨.openList, line⟩ :: rest => do
    let (list, rest) ← items (value levels) rest.length rest
    return (.list line list, rest)
  | levels + 1, ⟨.openTable, line⟩ :: rest => do
    let (list, rest) ← fields (value levels) rest.length rest
    return (.table line list, rest)
  | _, tokens =>
    match tokens with
    | ⟨.comment _, line⟩ :: _ | ⟨.comma, line⟩ :: _ | ⟨.lineEnd _, line⟩ :: _
    | ⟨.finish _, line⟩ :: _ => .ok (.word (.missing line), tokens)
    | _ => .error (nextLine tokens)

def levels : Nat := 80

def endOfEntry (tokens : List Token) : Reading (List Token) :=
  match skipBlanks tokens with
  | ⟨.comment clean, line⟩ :: rest => if clean then .ok rest else .error line
  | ⟨.lineEnd whole, line⟩ :: rest => .ok (⟨.lineEnd whole, line⟩ :: rest)
  | ⟨.finish contentLine, line⟩ :: rest => .ok (⟨.finish contentLine, line⟩ :: rest)
  | rest => .error (nextLine rest)

def skipRest : List Token → Reading (List Token)
  | [] => .ok []
  | ⟨.comment clean, line⟩ :: rest => if clean then .ok rest else .error line
  | ⟨.lineEnd whole, line⟩ :: rest => .ok (⟨.lineEnd whole, line⟩ :: rest)
  | ⟨.finish contentLine, line⟩ :: rest => .ok (⟨.finish contentLine, line⟩ :: rest)
  | _ :: rest => skipRest rest

def header (inList : Bool) (tokens : List Token) : Reading (Entry × List Token) := do
  let (parts, rest) := key tokens
  match inList, rest with
  | false, ⟨.closeList, _⟩ :: rest => return (.header false parts, ← endOfEntry rest)
  | true, ⟨.closeList, _⟩ :: ⟨.closeList, _⟩ :: rest =>
    return (.header true parts, ← endOfEntry rest)
  | true, ⟨.closeList, line⟩ :: _ => .error line
  | _, rest =>
    if parts.getLast?.any Word.isMissing then return (.header inList parts, ← skipRest rest)
    else .error (nextLine rest)

def assignment (tokens : List Token) : Reading (Entry × List Token) := do
  let (parts, rest) := key tokens
  match rest with
  | ⟨.equals, _⟩ :: rest =>
    let (written, rest) ← value levels (skipBlanks rest)
    return (.field parts written, ← endOfEntry rest)
  | rest => .error (nextLine rest)

def entry : List Token → Reading (Entry × List Token)
  | ⟨.openList, _⟩ :: ⟨.openList, _⟩ :: rest => header true rest
  | ⟨.openList, _⟩ :: rest => header false rest
  | ⟨.comma, line⟩ :: _ | ⟨.closeList, line⟩ :: _ | ⟨.openTable, line⟩ :: _
  | ⟨.closeTable, line⟩ :: _ => .error line
  | tokens => assignment tokens

/-- Reads entries up to the end. Each takes a token at least, so the number of tokens is enough for
`rounds`. -/
def entries : Nat → List Token → Reading (List Entry)
  | 0, tokens => .error (nextLine tokens)
  | rounds + 1, tokens => do
    match ← skipLines tokens with
    | ⟨.finish _, _⟩ :: _ => return []
    | tokens =>
      let (first, rest) ← entry tokens
      return first :: (← entries rounds rest)

end Resumable.Toml
