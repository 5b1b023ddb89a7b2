import Pitwall.Text.Visibility

/-!
# Quoted — a text between double quotes

Quotation for messages: whatever could be misread in print is spelled out, so that the quoted
text shows exactly which characters it holds.
-/

namespace Pitwall.Text

/-- A character by its number: a backslash, `u`, and the number in hexadecimal digits between
braces. -/
def codePointEscape (c : Char) : List Char :=
  '\\' :: 'u' :: '\x7b' :: Nat.toDigits 16 c.toNat ++ ['\x7d']

/-- How a character stands in a quotation: a few have an escape of their own, those that
combine or show nothing are given by number, all others stand for themselves. An apostrophe
cannot be taken for the closing mark, so it needs no escape. -/
def quoteChar (c : Char) : List Char :=
  if c = '\x00' then ['\\', '0']
  else if c = '\t' then ['\\', 't']
  else if c = '\r' then ['\\', 'r']
  else if c = '\n' then ['\\', 'n']
  else if c = '\\' || c = '"' then ['\\', c]
  else if isCombining c || isInvisible c then codePointEscape c
  else [c]

/-- The text in quotation marks. -/
def quote (s : String) : String :=
  String.ofList ('"' :: s.toList.flatMap quoteChar ++ ['"'])

end Pitwall.Text
