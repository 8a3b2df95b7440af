import FieldTables.Text.Basic
import FieldTables.Text.Printable

/-!
# Quoted and displayed texts

A quoted text stands between double quotes. The quote, the backslash and the characters below
U+0020 are escaped, five of them by a letter and the rest by their code in four hexadecimal
digits; every other character stands for itself. Diagnostics and JSON share this form.

A displayed text stands between double quotes too, and shows every character that a reader could not
see: controls, odd separators, unassigned and shapeless characters and those that would merge with
the character before them are written by their code in braces.
-/

namespace FieldTables.Text

/-- The lower-case hexadecimal digit of a number below sixteen. -/
def hexDigit (n : Nat) : Char := Nat.digitChar n

/-- A character as it stands between the quotes. -/
def escaped (c : Char) : Text :=
  if c = '"' then ['\\', '"']
  else if c = '\\' then ['\\', '\\']
  else if c = '\n' then ['\\', 'n']
  else if c = '\r' then ['\\', 'r']
  else if c = '\t' then ['\\', 't']
  else if c.toNat = 0x08 then ['\\', 'b']
  else if c.toNat = 0x0C then ['\\', 'f']
  else if c.toNat < 0x20 then
    ['\\', 'u', '0', '0', hexDigit (c.toNat / 16), hexDigit (c.toNat % 16)]
  else [c]

/-- The text between double quotes. -/
def quoted (t : Text) : Text := '"' :: t.flatMap escaped ++ ['"']

/-- A character as it is displayed between the quotes. -/
def displayedCharacter (c : Char) : Text :=
  if c.toNat = 0 then ['\\', '0']
  else if c = '\t' then ['\\', 't']
  else if c = '\n' then ['\\', 'n']
  else if c = '\r' then ['\\', 'r']
  else if c = '"' then ['\\', '"']
  else if c = '\\' then ['\\', '\\']
  else if extendsGrapheme c || !isPrintable c then
    ['\\', 'u', '\x7b'] ++ Nat.toDigits 16 c.toNat ++ ['\x7d']
  else [c]

/-- The text between double quotes, with nothing invisible left. -/
def displayed (t : Text) : Text := '"' :: t.flatMap displayedCharacter ++ ['"']

end FieldTables.Text
