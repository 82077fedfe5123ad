import Resumable.Number.Double
import Resumable.Toml.Token

/-! Words of a TOML text and the values they stand for. A fault is reported by its line. -/

namespace Resumable.Toml

/-- How a table came to be: by its own header, in the path of a header, by a dotted key or between
braces. Dotted keys extend those of the second and third kind, and paths of headers all but the
last. -/
inductive Origin where
  | header
  | path
  | dotted
  | inline
  deriving DecidableEq

/-- An `integer` whose digits make no number and a `float` beyond all doubles are kept without their
numbers, a date without its parts. `list` says whether its tables stand under headers of their own.
Fields are ordered by their names. Each item and field knows the line on which its value begins. -/
inductive Value where
  | text (text : String)
  | integer (number : Option Int)
  | float (number : Option Double)
  | bool (value : Bool)
  | dateTime
  | list (byHeaders : Bool) (items : List (Nat × Value))
  | table (origin : Origin) (fields : List (String × Nat × Value))

namespace Word

def hexValue? (c : Char) : Option Nat :=
  if c.isDigit then some (c.toNat - '0'.toNat)
  else if 'a' ≤ c && c ≤ 'f' then some (c.toNat - 'a'.toNat + 10)
  else if 'A' ≤ c && c ≤ 'F' then some (c.toNat - 'A'.toNat + 10)
  else none

def codePoint? (digits : List Char) : Option Char := do
  let code ← digits.foldlM (fun n c => (hexValue? c).map (16 * n + ·)) 0
  if code.isValidChar then some (Char.ofNat code) else none

def shortEscape? : Char → Option Char
  | 'b' => some '\x08'
  | 't' => some '\t'
  | 'n' => some '\n'
  | 'f' => some '\x0c'
  | 'r' => some '\r'
  | 'e' => some '\x1b'
  | '\x22' => some '\x22'
  | '\x5c' => some '\x5c'
  | _ => none

def endsLine (cs : List Char) : Bool :=
  match cs.dropWhile isBlank with
  | '\n' :: _ | '\r' :: '\n' :: _ => true
  | _ => false

def literalBody (line : Nat) : List Char → Except Nat (List Char)
  | [] => .ok []
  | '\n' :: rest => ('\n' :: ·) <$> literalBody (line + 1) rest
  | '\r' :: '\n' :: rest => ('\r' :: '\n' :: ·) <$> literalBody (line + 1) rest
  | c :: rest => if isPrintable c then (c :: ·) <$> literalBody line rest else .error line

/-- Reads quoted text with escapes. Behind a backslash at the end of a line, blanks and line ends
are `skipped` up to the next character. -/
def basicBody (line : Nat) (skipped : Bool) : List Char → Except Nat (List Char)
  | [] => .ok []
  | '\n' :: rest =>
    if skipped then basicBody (line + 1) true rest
    else ('\n' :: ·) <$> basicBody (line + 1) false rest
  | '\r' :: '\n' :: rest =>
    if skipped then basicBody (line + 1) true rest
    else ('\r' :: '\n' :: ·) <$> basicBody (line + 1) false rest
  | '\x5c' :: 'x' :: a :: b :: rest =>
    match codePoint? [a, b] with
    | some plain => (plain :: ·) <$> basicBody line false rest
    | none => .error line
  | '\x5c' :: 'u' :: a :: b :: c :: d :: rest =>
    match codePoint? [a, b, c, d] with
    | some plain => (plain :: ·) <$> basicBody line false rest
    | none => .error line
  | '\x5c' :: 'U' :: a :: b :: c :: d :: e :: f :: g :: h :: rest =>
    match codePoint? [a, b, c, d, e, f, g, h] with
    | some plain => (plain :: ·) <$> basicBody line false rest
    | none => .error line
  | '\x5c' :: c :: rest =>
    match shortEscape? c with
    | some plain => (plain :: ·) <$> basicBody line false rest
    | none =>
      if endsLine (c :: rest) then basicBody (if c = '\n' then line + 1 else line) true rest
      else .error line
  | c :: rest =>
    if skipped && isBlank c then basicBody line true rest
    else if isPrintable c && c ≠ '\x5c' then (c :: ·) <$> basicBody line false rest
    else .error line

/-- What stands between the marks. A word that isn't closed is at fault where it ends. -/
def between (mark : List Char) (w : Word) (inner : List Char) : Except Nat (List Char) :=
  if mark.isSuffixOf inner then .ok (inner.take (inner.length - mark.length))
  else .error (w.line + lineFeeds w.raw)

/-- The text of a block, from which a line end right behind the opening marks is left out, with the
line on which it begins. -/
def block (w : Word) : Nat × List Char :=
  match w.raw.drop 3 with
  | '\n' :: rest => (w.line + 1, rest)
  | '\r' :: '\n' :: rest => (w.line + 1, rest)
  | rest => (w.line, rest)

def quotedText (w : Word) : Except Nat String :=
  String.ofList <$> match w.quoting with
  | .plain => .ok w.raw
  | .literal => do literalBody w.line (← between ['\x27'] w (w.raw.drop 1))
  | .basic => do basicBody w.line false (← between ['\x22'] w (w.raw.drop 1))
  | .literalBlock => do
    literalBody w.block.1 (← between ['\x27', '\x27', '\x27'] w w.block.2)
  | .basicBlock => do
    basicBody w.block.1 false (← between ['\x22', '\x22', '\x22'] w w.block.2)

def isKeyCharacter (c : Char) : Bool := c.isAlphanum || c = '-' || c = '_'

def keyPart (w : Word) : Except Nat String :=
  match w.quoting with
  | .plain =>
    if w.raw.isEmpty || !w.raw.all isKeyCharacter then .error w.line else .ok (String.ofList w.raw)
  | .literal | .basic => w.quotedText
  | .literalBlock | .basicBlock => .error w.line

def separates (isDigit : Char → Bool) (ahead : Bool) : List Char → Bool
  | [] => true
  | '_' :: rest => ahead && rest.head?.any isDigit && separates isDigit false rest
  | c :: rest => separates isDigit (isDigit c) rest

def numeral (base : Nat) (digits : List Char) : Nat :=
  digits.foldl (fun n c => base * n + (hexValue? c).getD 0) 0

def natural? (base : Nat) (cs : List Char) : Option Nat :=
  let digits := cs.filter (· ≠ '_')
  if !digits.isEmpty && digits.all (fun c => (hexValue? c).any (· < base)) then
    some (numeral base digits)
  else none

/-- Reads the digits of a number in a base that its first two characters name. There may be none,
and then there is no number. -/
def based? (base : Nat) (cs : List Char) : Option (Option Int) :=
  let isDigit (c : Char) : Bool := (hexValue? c).any (· < base)
  if cs.all (fun c => isDigit c || c = '_') && separates isDigit false cs then
    some ((natural? base cs).map Int.ofNat)
  else none

def signed (cs : List Char) : Option Char × List Char :=
  match cs with
  | '+' :: rest => (some '+', rest)
  | '-' :: rest => (some '-', rest)
  | _ => (none, cs)

def applySign (sign : Option Char) (n : Nat) : Int := if sign = some '-' then -↑n else ↑n

/-- Reads an integer without a base. Behind the first underscore other characters may stand, and
then there is no number; a blank or what belongs to a float may not. -/
def plainInteger? (cs : List Char) : Option (Option Int) :=
  let (sign, body) := signed cs
  let rest := body.dropWhile Char.isDigit
  if body.head? = some '0' && body.length ≠ 1 then none
  else if body.isEmpty || rest.head?.any (· ≠ '_') then none
  else if rest.any (fun c => [' ', '.', 'e', 'E'].contains c) then none
  else if separates (hexValue? · |>.isSome) false body then
    some ((natural? 10 body).map (applySign sign))
  else none

def integer? (cs : List Char) : Option (Option Int) :=
  match cs with
  | '0' :: 'x' :: rest => based? 16 rest
  | '0' :: 'o' :: rest => based? 8 rest
  | '0' :: 'b' :: rest => based? 2 rest
  | _ => plainInteger? cs

def rounded (negative : Bool) (digits : List Char) (exponent : Int) : Option Double :=
  let number := Double.ofDecimal negative (numeral 10 digits) exponent
  if number.isFinite then some number else none

def floatPart? (cs : List Char) : Option (List Char) :=
  let digits := cs.filter (· ≠ '_')
  if !digits.isEmpty && digits.all Char.isDigit then some digits else none

/-- The exponent written behind a number, as its value; `some 0` if there is none. -/
def exponent? (cs : List Char) : Option Int :=
  match cs with
  | [] => some 0
  | c :: rest =>
    if c = 'e' || c = 'E' then
      let (sign, rest) := signed rest
      (floatPart? rest).map fun digits => applySign sign (numeral 10 digits)
    else none

def float? (cs : List Char) : Option (Option Double) := do
  let (sign, body) := signed cs
  let negative := sign = some '-'
  if body = ['i', 'n', 'f'] then return some (.ofMagnitude negative Double.infinity)
  if body = ['n', 'a', 'n'] then return some Double.nan
  if !separates Char.isDigit false body then none
  let isPart (c : Char) : Bool := c.isDigit || c = '_'
  let whole ← floatPart? (body.takeWhile isPart)
  if body.head? = some '0' && whole.length ≠ 1 then none
  match body.dropWhile isPart with
  | [] => none
  | '.' :: rest =>
    let places ← floatPart? (rest.takeWhile isPart)
    let exponent ← exponent? (rest.dropWhile isPart)
    return rounded negative (whole ++ places) (exponent - places.length)
  | rest => return rounded negative whole (← exponent? rest)

def twoDigits? (c d : Char) : Option Nat :=
  if c.isDigit && d.isDigit then some (numeral 10 [c, d]) else none

def isLeapYear (year : Nat) : Bool := year % 4 = 0 && (year % 100 ≠ 0 || year % 400 = 0)

def daysIn (year month : Nat) : Nat :=
  if month = 2 then if isLeapYear year then 29 else 28
  else if [4, 6, 9, 11].contains month then 30
  else 31

def afterDate? : List Char → Option (List Char)
  | y :: y' :: y'' :: y''' :: '-' :: m :: m' :: '-' :: d :: d' :: rest => do
    let year := (← twoDigits? y y') * 100 + (← twoDigits? y'' y''')
    let month ← twoDigits? m m'
    let day ← twoDigits? d d'
    if 1 ≤ month && month ≤ 12 && 1 ≤ day && day ≤ daysIn year month then some rest else none
  | _ => none

def afterFraction? : List Char → Option (List Char)
  | '.' :: rest =>
    if rest.head?.any Char.isDigit then some (rest.dropWhile Char.isDigit) else none
  | rest => some rest

def afterTime? : List Char → Option (List Char)
  | h :: h' :: ':' :: m :: m' :: rest => do
    if 23 < (← twoDigits? h h') || 59 < (← twoDigits? m m') then none
    match rest with
    | ':' :: s :: s' :: rest =>
      if 60 < (← twoDigits? s s') then none
      afterFraction? rest
    | rest => some rest
  | _ => none

def isOffset : List Char → Bool
  | [] | ['Z'] | ['z'] => true
  | [sign, h, h', ':', m, m'] =>
    (sign = '+' || sign = '-') && (twoDigits? h h').any (· ≤ 23) && (twoDigits? m m').any (· ≤ 59)
  | _ => false

def isDateTime (cs : List Char) : Bool :=
  match afterDate? cs with
  | some [] => true
  | some (c :: rest) => (c = 'T' || c = 't' || c = ' ') && (afterTime? rest).any isOffset
  | none => (afterTime? cs).any List.isEmpty

def plain? (cs : List Char) : Option Value :=
  if cs = ['t', 'r', 'u', 'e'] then some (.bool true)
  else if cs = ['f', 'a', 'l', 's', 'e'] then some (.bool false)
  else if isDateTime cs then some .dateTime
  else (integer? cs).map .integer <|> (float? cs).map .float

def value (w : Word) : Except Nat Value :=
  match w.quoting with
  | .plain => match plain? w.raw with
    | some value => .ok value
    | none => .error w.line
  | _ => .text <$> w.quotedText

end Word
end Resumable.Toml
