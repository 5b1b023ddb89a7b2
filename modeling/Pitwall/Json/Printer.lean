import Pitwall.Json.Basic

/-!
# Printing JSON

**`Json.compact`** writes a value without any blanks, **`Json.pretty`** puts every item and
field on a line of its own, two spaces further in. In strings only quotation marks, backslashes
and control characters are escaped.
-/

namespace Pitwall.Json

/-- A hexadecimal digit in lower case. -/
def hexDigit (n : Nat) : Char := Nat.digitChar n

/-- How a character stands in a string. -/
def escapeChar (c : Char) : List Char :=
  if c = '"' then ['\\', '"']
  else if c = '\\' then ['\\', '\\']
  else if c = '\x08' then ['\\', 'b']
  else if c = '\x0c' then ['\\', 'f']
  else if c = '\n' then ['\\', 'n']
  else if c = '\r' then ['\\', 'r']
  else if c = '\t' then ['\\', 't']
  else if c < ' ' then
    ['\\', 'u', '0', '0', hexDigit (c.toNat / 16), hexDigit (c.toNat % 16)]
  else [c]

/-- A string in quotation marks. -/
def stringText (s : String) : List Char := '"' :: s.toList.flatMap escapeChar ++ ['"']

mutual

/-- A value without blanks. -/
def chars : Json → List Char
  | .null => ['n', 'u', 'l', 'l']
  | .bool true => ['t', 'r', 'u', 'e']
  | .bool false => ['f', 'a', 'l', 's', 'e']
  | .num n => n.text
  | .str s => stringText s
  | .arr items => '[' :: itemChars items ++ [']']
  | .obj fields => '\x7b' :: fieldChars fields ++ ['\x7d']

/-- Items with commas between them. -/
def itemChars : List Json → List Char
  | [] => []
  | [j] => chars j
  | j :: js => chars j ++ ',' :: itemChars js

/-- Fields with commas between them. -/
def fieldChars : List (String × Json) → List Char
  | [] => []
  | [(name, j)] => stringText name ++ ':' :: chars j
  | (name, j) :: fields => stringText name ++ ':' :: chars j ++ ',' :: fieldChars fields

end

/-- A value without blanks. -/
def compact (j : Json) : String := String.ofList j.chars

/-- A new line at the given depth. -/
def newLine (depth : Nat) : List Char := '\n' :: List.replicate (2 * depth) ' '

mutual

/-- A value with its items and fields on lines of their own. -/
def prettyChars (depth : Nat) : Json → List Char
  | .null => ['n', 'u', 'l', 'l']
  | .bool true => ['t', 'r', 'u', 'e']
  | .bool false => ['f', 'a', 'l', 's', 'e']
  | .num n => n.text
  | .str s => stringText s
  | .arr [] => ['[', ']']
  | .arr (j :: js) =>
    '[' :: newLine (depth + 1) ++ prettyItems (depth + 1) (j :: js) ++ newLine depth ++ [']']
  | .obj [] => ['\x7b', '\x7d']
  | .obj (e :: es) =>
    '\x7b' :: newLine (depth + 1) ++ prettyFields (depth + 1) (e :: es) ++ newLine depth ++
      ['\x7d']

/-- Items on lines of their own. -/
def prettyItems (depth : Nat) : List Json → List Char
  | [] => []
  | [j] => prettyChars depth j
  | j :: js => prettyChars depth j ++ ',' :: newLine depth ++ prettyItems depth js

/-- Fields on lines of their own. -/
def prettyFields (depth : Nat) : List (String × Json) → List Char
  | [] => []
  | [(name, j)] => stringText name ++ ':' :: ' ' :: prettyChars depth j
  | (name, j) :: fields =>
    stringText name ++ ':' :: ' ' :: prettyChars depth j ++ ',' :: newLine depth ++
      prettyFields depth fields

end

/-- A value with its items and fields on lines of their own. -/
def pretty (j : Json) : String := String.ofList (j.prettyChars 0)

end Pitwall.Json
