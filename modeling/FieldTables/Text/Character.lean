import FieldTables.Text.Basic

/-!
# Characters

Some characters are told apart by short lists, others by tables of the code point ranges that have
a property, in ascending order. The blank characters are those with the Unicode property
White_Space; blanks separate lexemes and are trimmed from both ends of a statement. An identifier of
C starts with an ASCII letter or an underscore and goes on with ASCII letters, digits and
underscores; nothing outside ASCII takes part.
-/

namespace FieldTables

/-- A table of code points: the first and the last of each range, in ascending order. -/
abbrev Ranges := List (Nat × Nat)

/-- A code point is in a table when one of its ranges holds it. -/
def Ranges.contains (table : Ranges) (code : Nat) : Bool :=
  table.any fun range => range.1 ≤ code && code ≤ range.2

/-- The code points of the blank characters. -/
def blankCodes : List Nat :=
  [0x9, 0xA, 0xB, 0xC, 0xD, 0x20, 0x85, 0xA0, 0x1680, 0x2000, 0x2001, 0x2002, 0x2003, 0x2004,
   0x2005, 0x2006, 0x2007, 0x2008, 0x2009, 0x200A, 0x2028, 0x2029, 0x202F, 0x205F, 0x3000]

/-- Whether a character is blank. -/
def isBlank (c : Char) : Bool := blankCodes.contains c.toNat

/-- Whether an identifier can start with the character. -/
def isLetter (c : Char) : Bool := c.isAlpha || c == '_'

/-- Whether an identifier can go on with the character. -/
def isNameCharacter (c : Char) : Bool := c.isAlphanum || c == '_'

namespace Text

/-- Whether a text is an identifier. -/
def isIdentifier : Text → Bool
  | [] => false
  | c :: rest => isLetter c && rest.all isNameCharacter

/-- A text without the blanks in front. -/
def trimStart (t : Text) : Text := t.dropWhile isBlank

/-- A text without the blanks at its end. -/
def trimEnd : Text → Text
  | [] => []
  | c :: rest =>
    let kept := trimEnd rest
    if kept.isEmpty && isBlank c then [] else c :: kept

/-- A text without the blanks at both ends. -/
def trim (t : Text) : Text := trimEnd (trimStart t)

/-- The blanks in front of a text. -/
def indent (t : Text) : Text := t.takeWhile isBlank

/-- Nothing but blanks is trimmed in front. -/
theorem indent_append_trimStart (t : Text) : t.indent ++ t.trimStart = t := by
  simp [indent, trimStart]

end Text

end FieldTables
