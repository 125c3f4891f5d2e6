import SchemaModules.Text.CharClass
import SchemaModules.Text.Hidden

/-!
# Quoted text

How a message quotes a text it was given: between quotation marks, with a short escape for the
common controls, the backslash and the quotation mark, and a code point escape for every other
character that does not show.
-/

namespace SchemaModules.Text

/-- The digits of a code point in lower-case hexadecimal, without leading zeros. -/
def codeDigits (c : Char) : List Char :=
  Nat.toDigits 16 c.toNat

/-- One character as it stands inside quotation marks. -/
def quoteChar (c : Char) : List Char :=
  if c = '\x00' then ['\\', '0']
  else if c = '\t' then ['\\', 't']
  else if c = '\n' then ['\\', 'n']
  else if c = '\r' then ['\\', 'r']
  else if c = '\\' then ['\\', '\\']
  else if c = '"' then ['\\', '"']
  else if inRanges hiddenRanges c.toNat then ['\\', 'u', '\x7b'] ++ codeDigits c ++ ['\x7d']
  else [c]

/-- A text between quotation marks, so written that every character of it shows. -/
def quote (s : String) : String :=
  String.ofList (['"'] ++ s.toList.flatMap quoteChar ++ ['"'])

end SchemaModules.Text
