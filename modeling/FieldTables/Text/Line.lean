import FieldTables.Text.Basic

/-!
# Physical lines

A line ends at a line feed, alone or after one carriage return. The end of the last line starts no
further line, and a carriage return that no line feed follows belongs to its line.

A byte-order mark may stand anywhere in a line, either as the character U+FEFF or as the three
characters that its bytes give when each is read as a character of its own.
-/

namespace FieldTables.Text

/-- The physical lines of a text, without their ends. -/
def physicalLines : Text → List Text
  | [] => []
  | '\n' :: rest => [] :: physicalLines rest
  | '\r' :: '\n' :: rest => [] :: physicalLines rest
  | c :: rest =>
    match physicalLines rest with
    | [] => [[c]]
    | line :: lines => (c :: line) :: lines

/-- The byte-order mark. -/
def byteOrderMark : Char := '\ufeff'

/-- Each byte-order mark that was read byte by byte is taken out, from left to right. -/
def withoutSplitMarks : Text → Text
  | '\u00ef' :: '\u00bb' :: '\u00bf' :: rest => withoutSplitMarks rest
  | c :: rest => c :: withoutSplitMarks rest
  | [] => []

/-- A line without its encoding markers. -/
def withoutMarkers (t : Text) : Text := withoutSplitMarks (t.filter (· != byteOrderMark))

end FieldTables.Text
