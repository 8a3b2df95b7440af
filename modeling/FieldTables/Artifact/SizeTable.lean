import FieldTables.Artifact.Enumeration

/-!
# Size tables

The size table of a structure holds the size of each field in order. It has no entry for the
sentinel, so the entry of a field stands one place before its enumerator.
-/

namespace FieldTables

/-- A C table of sizes. -/
structure SizeTable where
  /-- The name of the table. -/
  name : Text
  /-- The types whose sizes are its entries. -/
  operands : List Text
  deriving DecidableEq

/-- The sizes of a structure's fields. -/
def Structure.sizeTable (settings : Settings) (s : Structure) : SizeTable where
  name := (s.labels settings).sizes
  operands := s.fields.entries.map Field.sizedType

namespace SizeTable

/-- The entry of a type. -/
def entry (operand : Text) : Text := "sizeof(".toList ++ operand ++ [')']

/-- The definition of a size table. -/
def text (t : SizeTable) : Text :=
  "const unsigned int ".toList ++ t.name ++ "[] = \x7b\n\t".toList
    ++ entrySeparator.intercalate (t.operands.map entry) ++ "\n\x7d;\n".toList

/-- The declaration of a size table, with its number of entries. -/
def declaration (t : SizeTable) : Text :=
  "extern const unsigned int ".toList ++ t.name ++ '[' :: Text.decimal t.operands.length
    ++ "];".toList

end SizeTable

end FieldTables
