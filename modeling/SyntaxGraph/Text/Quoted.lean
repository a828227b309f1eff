import SyntaxGraph.Text.Undrawn

/-!
# Quoted text

A text between double quotes. The quote, the backslash and the four control
characters that have a letter of their own are written with a backslash; any
other character that is not drawn by itself is written by its code point, in
base sixteen between braces. Every other character stands for itself.
-/

namespace SyntaxGraph.Text

/-- A code point in base sixteen, without leading zeros. -/
def codePointDigits (c : Char) : List Char := Nat.toDigits 16 c.toNat

/-- How a character is written inside quotes. -/
def quoteChar (c : Char) : List Char :=
  if c = '\x00' then ['\\', '0']
  else if c = '\t' then ['\\', 't']
  else if c = '\r' then ['\\', 'r']
  else if c = '\n' then ['\\', 'n']
  else if c = '"' then ['\\', '"']
  else if c = '\\' then ['\\', '\\']
  else if isUndrawn c then ['\\', 'u', '\x7b'] ++ codePointDigits c ++ ['\x7d']
  else [c]

/-- The text between double quotes, each character written on its own. -/
def quote (s : String) : String :=
  String.ofList ('"' :: (s.toList.flatMap quoteChar ++ ['"']))

end SyntaxGraph.Text
