import FieldTables.Symbol.Labels

/-!
# Enumerations

The enumeration of a structure lists a sentinel, whose value is zero, and then one enumerator for
each field in order.
-/

namespace FieldTables

/-- A C enumeration; the values of its enumerators are their positions. -/
structure Enumeration where
  /-- The tag. -/
  tag : Text
  /-- The enumerators in order. -/
  enumerators : List Text
  deriving DecidableEq

/-- The enumeration of a structure's fields. -/
def Structure.enumeration (settings : Settings) (s : Structure) : Enumeration :=
  let l := s.labels settings
  { tag := l.enumTag, enumerators := l.sentinel :: s.fields.names.map l.constant }

/-- What stands between the entries of an enumeration or a table. -/
def entrySeparator : Text := ",\n\t".toList

/-- The definition of an enumeration. -/
def Enumeration.text (e : Enumeration) : Text :=
  "enum ".toList ++ e.tag ++ " \x7b\n\t".toList ++ entrySeparator.intercalate e.enumerators
    ++ "\n\x7d;\n".toList

end FieldTables
