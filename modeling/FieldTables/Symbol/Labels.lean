import FieldTables.Header.Basic
import FieldTables.Settings.Basic
import FieldTables.Text.UpperCase

/-!
# Labels

Every symbol that is generated for a structure comes from its labels, so the enumeration, the size
table and the accessor agree on each of them. A short name leaves out the name space, constants are
in upper case, and a guard is made from a file name.
-/

namespace FieldTables

namespace Symbol

/-- A name without the name space in front. A name outside the name space, or with nothing after
it, is kept whole. -/
def shortName (nameSpace name : Text) : Text :=
  let rest := name.drop nameSpace.length
  if nameSpace.isPrefixOf name && !rest.isEmpty then rest else name

/-- The nonempty parts in upper case with underscores between them. -/
def constantName (parts : List Text) : Text :=
  ['_'].intercalate ((parts.filter fun part => !part.isEmpty).map Text.upper)

/-- A file name as a preprocessor symbol: ASCII letters in upper case, ASCII digits, and an
underscore for any other character, with one more in front of a digit. -/
def guardName (file : Text) : Text :=
  let symbol := file.map fun c => if c.isAlphanum then c.toUpper else '_'
  match symbol with
  | c :: _ => if c.isDigit then '_' :: symbol else symbol
  | [] => []

end Symbol

/-- What the symbols of one structure are made from. -/
structure Labels where
  /-- The tag of the structure. -/
  name : Text
  /-- The tag without the name space. -/
  short : Text
  deriving DecidableEq

/-- The labels of a structure. -/
def Structure.labels (settings : Settings) (s : Structure) : Labels where
  name := s.name
  short := Symbol.shortName settings.nameSpace s.name

namespace Labels

/-- The enumerator of a field. -/
def constant (l : Labels) (field : Text) : Text := Symbol.constantName [l.short.upper, field]

/-- The enumerator that stands for no field. -/
def sentinel (l : Labels) : Text := l.constant "INVALID_FIELD".toList

/-- The tag of the enumeration. Structures and enumerations share their tags, so it is never the
structure's own. -/
def enumTag (l : Labels) : Text := l.name ++ "_field".toList

/-- The size table. -/
def sizes (l : Labels) : Text := l.short ++ "_sizes".toList

/-- The accessor. -/
def accessor (l : Labels) : Text := l.short ++ "_enum_to_field".toList

end Labels

end FieldTables
