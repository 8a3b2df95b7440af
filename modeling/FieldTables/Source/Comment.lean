import FieldTables.Text.Basic

/-!
# Comments

A block comment may span lines, so a line is read knowing whether it starts inside one. Every byte
of a block comment, its delimiters included, becomes a space: what follows keeps its column. A line
comment is cut off together with the rest of its line.
-/

namespace FieldTables.Comment

/-- A line without its comments, and whether a block comment is still open at its end. -/
def strip : (inside : Bool) → Text → Text × Bool
  | inside, [] => ([], inside)
  | true, '*' :: '/' :: rest =>
    let (kept, stillInside) := strip false rest
    (' ' :: ' ' :: kept, stillInside)
  | true, c :: rest =>
    let (kept, stillInside) := strip true rest
    (Text.spaces c.utf8Size ++ kept, stillInside)
  | false, '/' :: '*' :: rest =>
    let (kept, stillInside) := strip true rest
    (' ' :: ' ' :: kept, stillInside)
  | false, '/' :: '/' :: _ => ([], false)
  | false, c :: rest =>
    let (kept, stillInside) := strip false rest
    (c :: kept, stillInside)

end FieldTables.Comment
