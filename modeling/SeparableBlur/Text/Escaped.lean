-- SUMMARY: Quoting a string in a message, with characters that cannot be seen escaped.
import SeparableBlur.Text.Invisible

/-!
# Quoted text in messages

A string is quoted so that it can be read: quotes and backslashes are escaped,
and so is every character that would not show on its own.
-/

namespace SeparableBlur.Text

/-- The escape of a character by the hexadecimal digits of its code point. -/
def codePointEscape (c : Char) : List Char :=
  ['\\', 'u', '{'] ++ Nat.toDigits 16 c.toNat ++ ['}']

/-- How a character appears between quotes. -/
def escape (c : Char) : List Char :=
  if c = '"' then ['\\', '"']
  else if c = '\\' then ['\\', '\\']
  else if c = '\n' then ['\\', 'n']
  else if c = '\r' then ['\\', 'r']
  else if c = '\t' then ['\\', 't']
  else if c = '\x00' then ['\\', '0']
  else if isInvisible c then codePointEscape c
  else [c]

/-- A string between quotes. -/
def quoted (s : String) : String := String.ofList ('"' :: s.toList.flatMap escape ++ ['"'])

end SeparableBlur.Text
