import ScriptReader.Text.Unprintable

/-! # Quoted text

A quoted text stands on one line between double quotes. The quote, the backslash and four control
characters have a short escape; every other character that cannot be shown is written as its code
point in braces. A character that can be shown stands for itself, an apostrophe included.
-/

namespace ScriptReader.Quoted

/-- The code point in lower-case hexadecimal without leading zeros, between braces. -/
def codePoint (c : Char) : List Char := ['\\', 'u', '{'] ++ Nat.toDigits 16 c.toNat ++ ['}']

/-- How one character is written between the quotes. -/
def escape (c : Char) : List Char :=
  if c = '"' then ['\\', '"']
  else if c = '\\' then ['\\', '\\']
  else if c = '\x00' then ['\\', '0']
  else if c = '\t' then ['\\', 't']
  else if c = '\n' then ['\\', 'n']
  else if c = '\r' then ['\\', 'r']
  else if unprintable c then codePoint c
  else [c]

end ScriptReader.Quoted

namespace ScriptReader

/-- The text between double quotes, every character escaped as it needs. -/
def quote (text : String) : String :=
  "\"" ++ String.ofList (text.toList.flatMap Quoted.escape) ++ "\""

end ScriptReader
