import FieldTables.Error
import FieldTables.Text.Character

/-!
# Settings

The settings say which name space the structures of a header share, which further words are types,
and what the generated source includes.
-/

namespace FieldTables

/-- The file that is read unless another one is given. -/
def defaultInput : Text := "struct_parser.h".toList

/-- The enum header that is written unless another one is given. -/
def defaultHeader : Text := "enum.h".toList

/-- The source that is written unless another one is given. -/
def defaultSource : Text := "enum.c".toList

/-- How names are derived and what the generated files include. -/
structure Settings where
  /-- What the names of structures start with and their short names leave out. -/
  nameSpace : Text := "evfs_".toList
  /-- Further words that are types. -/
  extraTypes : List Text := []
  /-- The file name of the enum header, as the source includes it. -/
  headerName : Text := defaultHeader
  /-- The file name of the header that declares the structures. -/
  structHeader : Text := defaultInput
  /-- Further includes of the source, with their delimiters. -/
  includes : List Text := ["<errno.h>".toList]
  deriving DecidableEq

/-- Settings are usable when the enum header has a name and every extra type is an identifier. -/
def Settings.validate (s : Settings) : Except Error Unit :=
  if s.headerName.trim.isEmpty then .error (.settings .blankHeaderName)
  else match s.extraTypes.find? fun type => !type.isIdentifier with
    | some type => .error (.settings (.badExtraType type))
    | none => .ok ()

end FieldTables
