import FieldTables.Header.Basic
import FieldTables.Source.Lexeme

/-!
# Declarations

A declaration gives one field: type words, tags and stars in any order around one name, and at most
one array length at the end. A word is a type if it is a keyword, an extra type, or the tag of a
declared structure while neither a structure nor the name has been read; any other word is the
name.
-/

namespace FieldTables

/-- The words that have a meaning of their own in a type. -/
def typeKeywords : List Text :=
  ["const".toList, "struct".toList, "unsigned".toList, "signed".toList, "long".toList,
   "int".toList, "short".toList, "char".toList, "double".toList, "float".toList, "void".toList]

/-- The keyword in front of a tag. -/
def structKeyword : Text := "struct".toList

/-- The qualifier that says nothing about the type itself. -/
def constKeyword : Text := "const".toList

/-- What a word of a declaration can mean. -/
structure Vocabulary where
  /-- The words that are types by themselves. -/
  types : List Text
  /-- The tags of all structures of the header. -/
  structures : List Text

/-- The keywords and the extra types, and the tags of a header. -/
def Vocabulary.extend (extraTypes structures : List Text) : Vocabulary :=
  ⟨typeKeywords ++ extraTypes, structures⟩

/-- A declaration read up to some token. -/
structure Declaration where
  /-- The words of the type in order, a tag after its keyword. -/
  parts : List Text := []
  /-- The words that are no type, with their columns. -/
  names : List (Text × Nat) := []
  /-- The structure type that was read last. -/
  inner : Option Text := none
  /-- The array length. -/
  length : Option Text := none
  /-- Whether a star was read. -/
  pointer : Bool := false
  deriving DecidableEq

namespace Declaration

/-- A word or star of the type is read. -/
def addPart (d : Declaration) (part : Text) : Declaration := { d with parts := d.parts ++ [part] }

/-- A structure type is read. -/
def addStructure (d : Declaration) (tag : Text) : Declaration :=
  { d with parts := d.parts ++ [structKeyword, tag], inner := some tag }

/-- Read the tokens that follow, or report the column of the one that has no place. -/
def read (v : Vocabulary) (d : Declaration) :
    List Token → Except (Nat × DeclarationError) Declaration
  | [] => .ok d
  | t :: rest =>
    if d.length.isSome then .error (t.column, .afterArray)
    else if t.lexeme = .word structKeyword then
      match rest with
      | ⟨.word tag, _⟩ :: others => read v (d.addStructure tag) others
      | _ => .error (t.column, .missingTag)
    else if v.structures.contains t.lexeme.text && d.inner.isNone && d.names.isEmpty then
      read v (d.addStructure t.lexeme.text) rest
    else if v.types.contains t.lexeme.text then read v (d.addPart t.lexeme.text) rest
    else match t.lexeme with
      | .word name => read v { d with names := d.names ++ [(name, t.column)] } rest
      | .star => read v { d.addPart ['*'] with pointer := true } rest
      | .group inside =>
        if d.names.isEmpty then .error (t.column, .arrayWithoutName)
        else if inside.trim.isEmpty then .error (t.column, .arrayWithoutLength)
        else read v { d with length := some inside.trim } rest
      | .brace => .error (t.column, .unexpected t.lexeme.text)

/-- The words of a type with a space between each two, except between two stars. -/
def typeText (parts : List Text) : Text :=
  parts.foldl (fun written part =>
    if written.isEmpty || (part == ['*'] && written.getLast? == some '*') then written ++ part
    else written ++ ' ' :: part) []

/--
The field of a declaration that was read to its end, in a statement that starts at the given place.
A pointer to a structure is a leaf.
-/
def field (line column : Nat) (d : Declaration) : Except (Nat × DeclarationError) Field :=
  match d.names with
  | [] => .error (column, .noName)
  | [(name, _)] =>
    if d.parts.all (· == constKeyword) then .error (column, .noType)
    else if !d.pointer && d.inner.isSome && d.length.isSome then
      .error (column, .arrayOfStructures)
    else .ok { Field.declared name (typeText d.parts) line with
      inner := if d.pointer then none else d.inner
      length := d.length }
  | (_, first) :: _ => .error (first, .unknownType (d.names.map Prod.fst))

end Declaration

/-- The field that a statement declares. -/
def Statement.field (v : Vocabulary) (s : Statement) : Except Error Field := do
  let tokens ← s.tokens
  match Declaration.read v {} tokens >>= Declaration.field s.line s.column with
  | .ok field => return field
  | .error (column, why) => throw (.syntactic s.line column (.malformed s.text why))

end FieldTables
