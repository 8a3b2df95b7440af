import FieldTables.Source.Comment
import FieldTables.Source.Wrapper
import FieldTables.Text.Line

/-!
# Statements

A header text is cut into statements: after every opening brace and at every semicolon of a line.
Comments, union openings and closing braces are blanked rather than cut, so a statement knows the
byte column at which its text starts in the physical line. A line that starts with a number sign is
a directive and gives one empty statement.
-/

namespace FieldTables

/-- A statement and where its text starts. -/
structure Statement where
  /-- The text, without blanks at its ends. -/
  text : Text
  /-- The physical line, counted from one. -/
  line : Nat
  /-- The byte column in the line, counted from one. -/
  column : Nat
  deriving DecidableEq

namespace Statement

/-- The pieces of a line with their byte offsets: cut after each opening brace, and at each
semicolon, which belongs to no piece. -/
def pieces (offset : Nat) : Text → List (Nat × Text)
  | [] => [(offset, [])]
  | '{' :: rest => (offset, ['{']) :: pieces (offset + 1) rest
  | ';' :: rest => (offset, []) :: pieces (offset + 1) rest
  | c :: rest =>
    match pieces (offset + c.utf8Size) rest with
    | [] => [(offset, [c])]
    | (_, piece) :: others => (offset, c :: piece) :: others

/-- A closing brace says nothing and is blanked out. -/
def withoutClosing (t : Text) : Text := t.map fun c => if c = '}' then ' ' else c

/-- The statement of a piece. -/
def ofPiece (line : Nat) (piece : Nat × Text) : Statement :=
  let text := withoutClosing piece.2
  { text := text.trim, line := line, column := piece.1 + (Text.indent text).width + 1 }

/-- Whether a line is a directive. -/
def isDirective (t : Text) : Bool := t.trimStart.head? == some '#'

/-- The statements of a line that holds no comment. -/
def ofLine (line : Nat) (t : Text) : List Statement :=
  let code := Wrapper.blank t
  if isDirective code then [{ text := [], line := line, column := 1 }]
  else (pieces 0 code).map (ofPiece line)

/-- The statements of the lines from a number on, the first one starting inside a block comment or
not. -/
def ofLines (inside : Bool) (line : Nat) : List Text → List Statement
  | [] => []
  | t :: rest =>
    let (code, stillInside) := Comment.strip inside t.withoutMarkers
    ofLine line code ++ ofLines stillInside (line + 1) rest

/-- The statements of a header text. -/
def ofText (t : Text) : List Statement := ofLines false 1 t.physicalLines

end Statement

end FieldTables
