import Gatekeeper.Text.Quoted.Table

/-!
# Text/Quoted — a text between quotation marks, for people to read

`quoted` writes a text between double quotes.  A quote, a backslash, a tab, a line feed, a carriage
return and the null character have escapes of their own; any other character that does not show on
its own (`hiddenRanges`) is written by its code point as `\u` with the hexadecimal digits in braces;
all others stand as they are.
-/

namespace Gatekeeper.Text

/-- Whether a character is written by its code point. -/
def isHidden (c : Char) : Bool :=
  hiddenRanges.any fun r => r.1 ≤ c.toNat && c.toNat ≤ r.2

/-- One character as it stands between the quotes. -/
def quotedChar (c : Char) : List Char :=
  if c = '"' then ['\\', '"']
  else if c = '\\' then ['\\', '\\']
  else if c = '\t' then ['\\', 't']
  else if c = '\n' then ['\\', 'n']
  else if c = '\r' then ['\\', 'r']
  else if c = '\x00' then ['\\', '0']
  else if isHidden c then ['\\', 'u', '\x7b'] ++ Nat.toDigits 16 c.toNat ++ ['\x7d']
  else [c]

/-- A text between quotes. -/
def quoted (s : String) : String :=
  String.ofList ('"' :: s.toList.flatMap quotedChar ++ ['"'])

/-- Texts between quotes, separated by commas. -/
def quotedList (ss : List String) : String :=
  ", ".intercalate (ss.map quoted)

end Gatekeeper.Text
