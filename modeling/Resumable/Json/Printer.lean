import Resumable.Json.Basic

/-! Writing JSON text. -/

namespace Resumable.Json

/-- Only marks, backslashes and controls are escaped. -/
def escapeChar (c : Char) : List Char :=
  if c = '\x22' then ['\x5c', '\x22']
  else if c = '\x5c' then ['\x5c', '\x5c']
  else if c = '\x08' then ['\x5c', 'b']
  else if c = '\x0c' then ['\x5c', 'f']
  else if c = '\n' then ['\x5c', 'n']
  else if c = '\r' then ['\x5c', 'r']
  else if c = '\t' then ['\x5c', 't']
  else if c.toNat < 0x20 then
    ['\x5c', 'u', '0', '0', Nat.digitChar (c.toNat / 16), Nat.digitChar (c.toNat % 16)]
  else [c]

def stringText (s : String) : String :=
  String.ofList ('\x22' :: s.toList.flatMap escapeChar ++ ['\x22'])

/-- Doubles without digits have no number in JSON. -/
def floatText (d : Double) : String := if d.isFinite then d.render Double.jsonLayout else "null"

def indent (level : Nat) : String := String.join (List.replicate level "  ")

mutual

/-- One item or field to a line, two blanks to a level. -/
def pretty (level : Nat) : Json → String
  | null => "null"
  | bool value => if value then "true" else "false"
  | int value => toString value
  | float value => floatText value
  | str value => stringText value
  | arr [] => "[]"
  | arr (item :: rest) =>
    "[\n" ++ indent (level + 1) ++ item.pretty (level + 1) ++ prettyItems (level + 1) rest ++
      "\n" ++ indent level ++ "]"
  | obj [] => "\x7b\x7d"
  | obj ((key, value) :: rest) =>
    "\x7b\n" ++ indent (level + 1) ++ stringText key ++ ": " ++ value.pretty (level + 1) ++
      prettyFields (level + 1) rest ++ "\n" ++ indent level ++ "\x7d"

def prettyItems (level : Nat) : List Json → String
  | [] => ""
  | item :: rest => ",\n" ++ indent level ++ item.pretty level ++ prettyItems level rest

def prettyFields (level : Nat) : List (String × Json) → String
  | [] => ""
  | (key, value) :: rest =>
    ",\n" ++ indent level ++ stringText key ++ ": " ++ value.pretty level ++ prettyFields level rest

end

mutual

/-- All on one line, without blanks. -/
def compact : Json → String
  | null => "null"
  | bool value => if value then "true" else "false"
  | int value => toString value
  | float value => floatText value
  | str value => stringText value
  | arr [] => "[]"
  | arr (item :: rest) => "[" ++ item.compact ++ compactItems rest ++ "]"
  | obj [] => "\x7b\x7d"
  | obj ((key, value) :: rest) =>
    "\x7b" ++ stringText key ++ ":" ++ value.compact ++ compactFields rest ++ "\x7d"

def compactItems : List Json → String
  | [] => ""
  | item :: rest => "," ++ item.compact ++ compactItems rest

def compactFields : List (String × Json) → String
  | [] => ""
  | (key, value) :: rest => "," ++ stringText key ++ ":" ++ value.compact ++ compactFields rest

end

end Resumable.Json
