import FieldTables.Artifact.Accessor
import FieldTables.Artifact.SizeTable

/-!
# Artifacts

Two files are generated from a header: the enum header, with the enumerations and the declarations
of all tables and accessors, and the source, with their definitions. Structures keep their order in
both.
-/

namespace FieldTables

/-- The first line of both files. -/
def generatedNotice : Text := "/* Auto-generated by fieldgen. Do not edit. */".toList

/-- What is generated from a header. -/
structure Artifacts where
  /-- The text of the enum header. -/
  enumHeader : Text
  /-- The definitions of the size tables. -/
  sizeTables : Text
  /-- The definitions of the accessors. -/
  accessors : Text
  /-- The text of the source, which holds the tables and the accessors. -/
  source : Text
  deriving DecidableEq

/-- What the enum header declares about a structure, besides its enumeration. -/
def Structure.declarations (settings : Settings) (s : Structure) : List Text :=
  ["struct ".toList ++ s.name ++ [';'], (s.sizeTable settings).declaration,
   (s.accessor settings).signature ++ [';'], []]

namespace Settings

/-- The guard of the enum header. -/
def guard (settings : Settings) : Text := Symbol.guardName settings.headerName

/-- The source with the given tables and accessors. -/
def source (settings : Settings) (sizeTables accessors : Text) : Text :=
  ['\n'].intercalate <|
    [generatedNotice] ++ settings.includes.map ("#include ".toList ++ ·)
      ++ ["#include \"".toList ++ settings.structHeader ++ ['"'],
          "#include \"".toList ++ settings.headerName ++ ['"'], [], sizeTables, accessors]

end Settings

namespace Header

/-- The enum header. -/
def enumHeader (settings : Settings) (h : Header) : Text :=
  ['\n'].intercalate
    ([generatedNotice, "#ifndef ".toList ++ settings.guard, "#define ".toList ++ settings.guard, []]
      ++ h.entries.map (fun s => (s.enumeration settings).text)
      ++ h.entries.flatMap (Structure.declarations settings)
      ++ ["#endif /* ".toList ++ settings.guard ++ " */".toList]) ++ ['\n']

/-- The size tables of all structures. -/
def sizeTables (settings : Settings) (h : Header) : Text :=
  ['\n'].intercalate (h.entries.map fun s => (s.sizeTable settings).text)

/-- The accessors of all structures. -/
def accessors (settings : Settings) (h : Header) : Text :=
  ['\n'].intercalate (h.entries.map fun s => (s.accessor settings).text)

/-- Everything that is generated from a flat header. -/
def artifacts (settings : Settings) (h : Header) : Artifacts :=
  let sizeTables := h.sizeTables settings
  let accessors := h.accessors settings
  { enumHeader := h.enumHeader settings
    sizeTables := sizeTables
    accessors := accessors
    source := settings.source sizeTables accessors }

end Header

end FieldTables
