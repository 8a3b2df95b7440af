import FieldTables.Text.Quoted

/-!
# Errors

Every way in which a run can fail is a cause with what it speaks of. `Error.message` is the only
place that words them.
-/

namespace FieldTables

/-- Why a file operation failed. -/
inductive FileError where
  /-- The file, or a directory on the way to it, does not exist. -/
  | notFound
  /-- The place is in use by the system itself. -/
  | busy
  /-- A file stands where a directory is needed. -/
  | notDirectory
  /-- A directory stands where a file is needed. -/
  | isDirectory
  /-- A name or a path is longer than the system allows. -/
  | nameTooLong
  /-- The content is no UTF-8 text. -/
  | notText
  /-- A failure of another kind, in the system's words. -/
  | other (description : Text)
  deriving DecidableEq

/-- The text of a file error: the system's words and its number for them. -/
def FileError.message : FileError → Text
  | notFound => "No such file or directory (os error 2)".toList
  | busy => "Device or resource busy (os error 16)".toList
  | notDirectory => "Not a directory (os error 20)".toList
  | isDirectory => "Is a directory (os error 21)".toList
  | nameTooLong => "File name too long (os error 36)".toList
  | notText => "stream did not contain valid UTF-8".toList
  | other description => description

/-- Why settings are refused. -/
inductive SettingsError where
  /-- The text is no JSON, or its values have the wrong types. -/
  | malformed
  /-- The name of the enum header is blank. -/
  | blankHeaderName
  /-- An extra type is no identifier. -/
  | badExtraType (type : Text)
  deriving DecidableEq

/-- The text of a settings error. -/
def SettingsError.message : SettingsError → Text
  | malformed => "invalid config".toList
  | blankHeaderName => "header_name must not be empty".toList
  | badExtraType type =>
    "extra type ".toList ++ type.displayed ++ " is not a C identifier".toList

/-- Why a declaration cannot be read as a type and a name. -/
inductive DeclarationError where
  /-- Something follows the array length. -/
  | afterArray
  /-- The word `struct` stands without a tag. -/
  | missingTag
  /-- An array length comes before the name. -/
  | arrayWithoutName
  /-- The brackets are blank. -/
  | arrayWithoutLength
  /-- A lexeme has no place in a declaration. -/
  | unexpected (lexeme : Text)
  /-- No word is left for the name. -/
  | noName
  /-- Several words are left for the name. -/
  | unknownType (words : List Text)
  /-- Nothing says what the type is. -/
  | noType
  /-- An array of structures held by value. -/
  | arrayOfStructures
  deriving DecidableEq

/-- The text of a declaration error. -/
def DeclarationError.message : DeclarationError → Text
  | afterArray => "nothing may follow an array declarator".toList
  | missingTag => "expected a structure name after \"struct\"".toList
  | arrayWithoutName => "array declarator without a field name".toList
  | arrayWithoutLength => "array declarator without a length".toList
  | unexpected lexeme => "unexpected token ".toList ++ lexeme.quoted
  | noName => "no field name".toList
  | unknownType words => "unknown type name among ".toList ++ Text.quoted ([' '].intercalate words)
  | noType => "no type".toList
  | arrayOfStructures => "arrays of structures are not supported".toList

/-- Why a statement cannot be read. -/
inductive SyntaxError where
  /-- A stretch of the statement is no lexeme. -/
  | unsupported (stretch statement : Text)
  /-- A statement with a brace does not open a structure. -/
  | badOpener (statement : Text)
  /-- A declaration comes before the first structure. -/
  | outside (statement : Text)
  /-- A declaration is malformed. -/
  | malformed (statement : Text) (why : DeclarationError)
  /-- A field is added before the first structure. -/
  | orphan (field : Text)
  deriving DecidableEq

/-- The text of a syntax error. -/
def SyntaxError.message : SyntaxError → Text
  | unsupported stretch statement =>
    "Unsupported syntax ".toList ++ stretch.quoted ++ " in ".toList ++ statement.quoted
  | badOpener statement =>
    "Expected \"struct <name> \x7b\" but found ".toList ++ statement.quoted
  | outside statement =>
    "Declaration ".toList ++ statement.quoted ++ " appears outside of a structure block".toList
  | malformed statement why =>
    "Malformed declaration ".toList ++ statement.quoted ++ ": ".toList ++ why.message
  | orphan field =>
    "Field \"".toList ++ field ++ "\" is declared outside of a structure block".toList

/-- What a generated symbol names. -/
inductive Owner where
  /-- A structure, by its tag. -/
  | structure (name : Text)
  /-- The enumeration of a structure. -/
  | enumeration (name : Text)
  /-- The enumerator that stands for no field of a structure. -/
  | sentinel (name : Text)
  /-- A field of a structure. -/
  | field (name member : Text)
  /-- The size table of a structure. -/
  | sizeTable (name : Text)
  /-- The accessor of a structure. -/
  | accessor (name : Text)
  deriving DecidableEq

/-- An owner in words. -/
def Owner.description : Owner → Text
  | .structure name => "structure ".toList ++ name
  | enumeration name => "the enum of ".toList ++ name
  | sentinel name => "the sentinel of ".toList ++ name
  | field name member => name ++ '.' :: member
  | sizeTable name => "the size table of ".toList ++ name
  | accessor name => "the accessor of ".toList ++ name

/-- Why a run fails. -/
inductive Error where
  /-- A file operation failed. -/
  | file (cause : FileError)
  /-- The settings are refused. -/
  | settings (cause : SettingsError)
  /-- A statement cannot be read; columns count bytes from one. -/
  | syntactic (line column : Nat) (cause : SyntaxError)
  /-- Two structures share a tag. -/
  | duplicateStructure (name : Text)
  /-- A structure has no fields. -/
  | emptyStructure (name : Text)
  /-- Two fields of a structure share a name. -/
  | duplicateField (name field : Text)
  /-- A field holds a structure that is not declared. -/
  | unresolvedReference (name field referenced : Text)
  /-- Two owners in one name space get the same symbol. -/
  | duplicateSymbol (symbol : Text) (first second : Owner)
  /-- A structure holds itself, along the given chain. -/
  | recursiveNesting (chain : List Text)
  deriving DecidableEq

/-- The text of an error. -/
def Error.message : Error → Text
  | file cause => "I/O error: ".toList ++ cause.message
  | settings cause => "Configuration error: ".toList ++ cause.message
  | syntactic line column cause =>
    "Parse error at line ".toList ++ Text.decimal line ++ ", column ".toList
      ++ Text.decimal column ++ ": ".toList ++ cause.message
  | duplicateStructure name =>
    "The structure \"".toList ++ name ++ "\" is declared twice".toList
  | emptyStructure name =>
    "The structure \"".toList ++ name ++ "\" declares no fields".toList
  | duplicateField name field =>
    "The field \"".toList ++ field ++ "\" is declared twice in structure \"".toList ++ name
      ++ ['"']
  | unresolvedReference name field referenced =>
    "Field \"".toList ++ field ++ "\" of structure \"".toList ++ name
      ++ "\" references undeclared structure \"".toList ++ referenced ++ ['"']
  | duplicateSymbol symbol first second =>
    "Generated symbol \"".toList ++ symbol ++ "\" is produced by both ".toList
      ++ first.description ++ " and ".toList ++ second.description
  | recursiveNesting chain =>
    "Recursive nesting is not allowed: ".toList ++ " -> ".toList.intercalate chain

end FieldTables
