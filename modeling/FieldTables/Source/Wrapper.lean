import FieldTables.Text.Character
import FieldTables.Text.WordCharacter

/-!
# Anonymous unions

The members of an anonymous union belong to the structure around it. So the opening of a union, the
word `union` up to its brace, is blanked out, and its members are read as fields like any other.
-/

namespace FieldTables.Wrapper

/-- The word that opens a union. -/
def keyword : Text := "union".toList

/-- The number of characters of the union opening that a text starts with. -/
def opening? (t : Text) : Option Nat :=
  if keyword.isPrefixOf t then
    let rest := t.drop keyword.length
    match Text.trimStart rest with
    | '{' :: _ => some (keyword.length + (Text.indent rest).length + 1)
    | _ => none
  else none

/--
Blank out the union openings of a text. `afterWord` says whether a word character comes before the
text, and `left` how many of its characters still belong to an opening.
-/
def blankFrom (afterWord : Bool) (left : Nat) : Text → Text
  | [] => []
  | c :: rest =>
    match left, if afterWord then none else opening? (c :: rest) with
    | n + 1, _ => Text.spaces c.utf8Size ++ blankFrom (isWordCharacter c) n rest
    | 0, some n => Text.spaces c.utf8Size ++ blankFrom (isWordCharacter c) (n - 1) rest
    | 0, none => c :: blankFrom (isWordCharacter c) 0 rest

/-- A line with its union openings blanked out. -/
def blank (t : Text) : Text := blankFrom false 0 t

end FieldTables.Wrapper
