import Resumable.Json.Basic

/-! Reading JSON text. A failure answers what is left behind the place it is reported at. -/

namespace Resumable.Json

abbrev Reading := Except (List Char)

def isBlank (c : Char) : Bool := c = ' ' || c = '\n' || c = '\t' || c = '\r'

def skipBlank (cs : List Char) : List Char := cs.dropWhile isBlank

/-- Reads the rest of a word. A wrong character is part of what the failure has passed. -/
def word (value : Json) : List Char → List Char → Reading (Json × List Char)
  | [], cs => .ok (value, cs)
  | _ :: _, [] => .error []
  | expected :: more, c :: rest => if c = expected then word value more rest else .error rest

def digitValue (c : Char) : Nat := c.toNat - '0'.toNat

def numeral (digits : List Char) : Nat := digits.foldl (fun n c => 10 * n + digitValue c) 0

/-- Takes up digits as long as the number fits a word, and answers those that are left. -/
def fitting (number : UInt64) : List Char → UInt64 × List Char
  | [] => (number, [])
  | c :: rest =>
    let next := 10 * number.toNat + digitValue c
    if next < UInt64.size then fitting (.ofNat next) rest else (number, c :: rest)

def floating (negative : Bool) (digits : UInt64) (exponent : Int) (rest : List Char) :
    Reading (Json × List Char) :=
  match Double.scaleWord? negative digits exponent with
  | some value => .ok (float value, rest)
  | none => .error rest

/-- Negative integers beyond a signed word, and a negative zero, are read as doubles. -/
def integer (negative : Bool) (digits : UInt64) (rest : List Char) : Reading (Json × List Char) :=
  if negative then
    if 0 < digits && digits.toNat ≤ Nat.pow 2 63 then .ok (int (-digits.toNat), rest)
    else floating true digits 0 rest
  else .ok (int digits.toNat, rest)

def exponentPart (negative : Bool) (digits : UInt64) (exponent : Int) (cs : List Char) :
    Reading (Json × List Char) :=
  let (below, cs) := match cs with
    | '+' :: rest => (false, rest)
    | '-' :: rest => (true, rest)
    | _ => (false, cs)
  match cs with
  | [] => .error []
  | c :: rest =>
    if c.isDigit then
      let size : Int := numeral (cs.takeWhile Char.isDigit)
      floating negative digits (if below then exponent - size else exponent + size)
        (cs.dropWhile Char.isDigit)
    else .error rest

/-- Reads what follows the digits before a decimal point. Digits that don't fit the word raise the
exponent before the point and are passed over behind it. -/
def fractionPart (negative : Bool) (whole cs : List Char) : Reading (Json × List Char) :=
  let (digits, excess) := fitting 0 whole
  let exponent : Int := excess.length
  match cs with
  | '.' :: rest =>
    let places := rest.takeWhile Char.isDigit
    let after := rest.dropWhile Char.isDigit
    if places.isEmpty then .error (rest.drop 1)
    else
      let (digits, passed) := fitting digits places
      let exponent := exponent - (places.length - passed.length)
      match after with
      | 'e' :: more | 'E' :: more => exponentPart negative digits exponent more
      | _ => floating negative digits exponent after
  | 'e' :: rest | 'E' :: rest => exponentPart negative digits exponent rest
  | _ => if excess.isEmpty then integer negative digits cs else floating negative digits exponent cs

/-- Reads a number whose sign has been passed. A leading zero stands alone. -/
def number (negative : Bool) (cs : List Char) : Reading (Json × List Char) :=
  match cs with
  | [] => .error []
  | '0' :: rest =>
    match rest with
    | c :: more => if c.isDigit then .error more else fractionPart negative ['0'] rest
    | [] => fractionPart negative ['0'] []
  | c :: rest =>
    if c.isDigit then
      fractionPart negative (cs.takeWhile Char.isDigit) (cs.dropWhile Char.isDigit)
    else .error rest

def hexValue? (c : Char) : Option Nat :=
  if '0' ≤ c && c ≤ '9' then some (c.toNat - '0'.toNat)
  else if 'a' ≤ c && c ≤ 'f' then some (c.toNat - 'a'.toNat + 10)
  else if 'A' ≤ c && c ≤ 'F' then some (c.toNat - 'A'.toNat + 10)
  else none

def hexUnit? (a b c d : Char) : Option Nat := do
  return (((← hexValue? a) * 16 + (← hexValue? b)) * 16 + (← hexValue? c)) * 16 + (← hexValue? d)

def afterBytes : Nat → List Char → List Char
  | 0, cs => cs
  | _, [] => []
  | count + 1, c :: rest => afterBytes (count + 1 - c.utf8Size) rest

def shortEscape? : Char → Option Char
  | '\x22' => some '\x22'
  | '\x5c' => some '\x5c'
  | '/' => some '/'
  | 'b' => some '\x08'
  | 'f' => some '\x0c'
  | 'n' => some '\n'
  | 'r' => some '\r'
  | 't' => some '\t'
  | _ => none

def isLeading (unit : Nat) : Bool := 0xd800 ≤ unit && unit ≤ 0xdbff

def isTrailing (unit : Nat) : Bool := 0xdc00 ≤ unit && unit ≤ 0xdfff

def joinUnits (leading trailing : Nat) : Char :=
  Char.ofNat ((leading - 0xd800) * 0x400 + (trailing - 0xdc00) + 0x10000)

/-- Reads a string behind its opening mark; `done` holds what was read, last character first. -/
def stringBody (done : List Char) : List Char → Reading (String × List Char)
  | [] => .error []
  | '\x22' :: rest => .ok (String.ofList done.reverse, rest)
  | '\x5c' :: 'u' :: a :: b :: c :: d :: rest =>
    match hexUnit? a b c d with
    | none => .error (afterBytes 4 (a :: b :: c :: d :: rest))
    | some unit =>
      if isTrailing unit then .error rest
      else if isLeading unit then
        match rest with
        | '\x5c' :: 'u' :: e :: f :: g :: h :: more =>
          match hexUnit? e f g h with
          | none => .error (afterBytes 4 (e :: f :: g :: h :: more))
          | some second =>
            if isTrailing second then stringBody (joinUnits unit second :: done) more
            else .error more
        | '\x5c' :: 'u' :: more => .error (afterBytes 4 more)
        | '\x5c' :: _ :: more => .error more
        | '\x5c' :: [] => .error []
        | _ :: more => .error more
        | [] => .error []
      else stringBody (Char.ofNat unit :: done) rest
  | '\x5c' :: 'u' :: rest => .error (afterBytes 4 rest)
  | '\x5c' :: c :: rest =>
    match shortEscape? c with
    | some plain => stringBody (plain :: done) rest
    | none => .error rest
  | c :: rest => if c.toNat < 0x20 then .error rest else stringBody (c :: done) rest

/-- Reads items up to the closing bracket. Each item takes a character at least, so the length of
the text is enough for `rounds`. -/
def items (item : List Char → Reading (Json × List Char)) :
    Nat → List Char → Reading (List Json × List Char)
  | 0, cs => .error cs
  | rounds + 1, cs => do
    let (first, rest) ← item cs
    match skipBlank rest with
    | ']' :: rest => return ([first], rest)
    | ',' :: rest =>
      match skipBlank rest with
      | ']' :: rest => .error rest
      | rest =>
        let (others, rest) ← items item rounds rest
        return (first :: others, rest)
    | rest => .error rest

def field (value : List Char → Reading (Json × List Char)) (cs : List Char) :
    Reading ((String × Json) × List Char) :=
  match cs with
  | '\x22' :: rest => do
    let (key, rest) ← stringBody [] rest
    match skipBlank rest with
    | ':' :: rest =>
      let (value, rest) ← value rest
      return ((key, value), rest)
    | rest => .error rest
  | _ => .error cs

/-- Reads fields up to the closing brace, in the same manner as items. -/
def fields (value : List Char → Reading (Json × List Char)) :
    Nat → List Char → Reading (List (String × Json) × List Char)
  | 0, cs => .error cs
  | rounds + 1, cs => do
    let (first, rest) ← field value cs
    match skipBlank rest with
    | '\x7d' :: rest => return ([first], rest)
    | ',' :: rest =>
      let (others, rest) ← fields value rounds (skipBlank rest)
      return (first :: others, rest)
    | rest => .error rest

/-- Reads one value, in which lists and objects are nested at most `levels` deep. -/
def value : Nat → List Char → Reading (Json × List Char)
  | levels, cs =>
    match skipBlank cs with
    | [] => .error []
    | 'n' :: rest => word null ['u', 'l', 'l'] rest
    | 't' :: rest => word (bool true) ['r', 'u', 'e'] rest
    | 'f' :: rest => word (bool false) ['a', 'l', 's', 'e'] rest
    | '-' :: rest => number true rest
    | '\x22' :: rest => do
      let (text, rest) ← stringBody [] rest
      return (str text, rest)
    | '[' :: rest =>
      match levels with
      | 0 => .error rest
      | levels + 1 =>
        match skipBlank rest with
        | ']' :: rest => return (arr [], rest)
        | rest => do
          let (list, rest) ← items (value levels) (rest.length + 1) rest
          return (arr list, rest)
    | '\x7b' :: rest =>
      match levels with
      | 0 => .error rest
      | levels + 1 =>
        match skipBlank rest with
        | '\x7d' :: rest => return (obj [], rest)
        | rest => do
          let (list, rest) ← fields (value levels) (rest.length + 1) rest
          return (obj list, rest)
    | c :: rest => if c.isDigit then number false (c :: rest) else .error rest

end Resumable.Json
